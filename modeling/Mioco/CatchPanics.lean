import Mioco.Completion
import Mioco.Edits
import Mioco.EventDelivery
/-!
# A panic without `catch_panics` (src/coroutine.rs, src/thread.rs, src/mod.rs)

The panic of a coroutine goes to its own thread as a `PropagatePanic`; `start` unwinds if that is the first thread.
`Calm` is what the steps of a thread leave alone of the message.
-/
namespace Mioco

open Lib (System Slab)

namespace Instance
variable {S : Sched} {w : Nat} {α : Type} {s m s' : Instance S w α} {t c : Nat} {cfg : Config} {P : Panic → Prop}

/-- No message is taken, no slab is without places, and thread `t` does not begin to stop. -/
structure Calm (t : Nat) (s s' : Instance S w α) : Prop where
  inbox : ∀ i msg, msg ∈ (s.threads i).inbox → msg ∈ (s'.threads i).inbox
  room : ∀ i, 0 < (s.threads i).coroutines.slots.length → 0 < (s'.threads i).coroutines.slots.length
  stopping : (s'.threads t).pc.isStopping = true → (s.threads t).pc.isStopping = true

theorem Calm.refl (t : Nat) (s : Instance S w α) : Calm t s s := ⟨fun _ _ h => h, fun _ h => h, fun h => h⟩

theorem Calm.after (h' : Calm t m s') (h : Calm t s m) : Calm t s s' :=
  ⟨fun i msg hm => h'.inbox i msg (h.inbox i msg hm), fun i hr => h'.room i (h.room i hr),
    fun hs => h.stopping (h'.stopping hs)⟩

/-- The edit of one thread, `i`. -/
theorem calm_setThread (hm : m.threads = s.threads) {i : Nat} {th : Thread S α}
    (hin : ∀ msg ∈ (s.threads i).inbox, msg ∈ th.inbox)
    (hro : 0 < (s.threads i).coroutines.slots.length → 0 < th.coroutines.slots.length)
    (hst : i = t → th.pc.isStopping = true → (s.threads t).pc.isStopping = true) : Calm t s (m.setThread i th) := by
  refine ⟨fun i' msg hmem => ?_, fun i' hr => ?_, fun hs => ?_⟩
  · rw [threads_setThread]
    split
    · rename_i hi
      exact hin msg (hi ▸ hmem)
    · rw [hm]
      exact hmem
  · rw [threads_setThread]
    split
    · rename_i hi
      exact hro (hi ▸ hr)
    · rw [hm]
      exact hr
  · rw [threads_setThread] at hs
    split at hs
    · rename_i hi
      exact hst hi.symm hs
    · rw [hm] at hs
      exact hs

theorem Edit.calm (h : Edit t s m) : Calm t s m := by
  cases h with
  | rest hm => refine ⟨fun i msg hmem => ?_, fun i hr => ?_, fun hs => ?_⟩ <;> rw [hm] at * <;> assumption
  | own hm hin ho hro hst => exact calm_setThread hm (fun msg hmem => by rw [hin]; exact hmem) hro (fun _ => hst.stopping)
  | send l msg =>
    refine calm_setThread rfl (fun msg' hmem => List.mem_append_left _ hmem) (fun hr => hr) (fun hl hs => ?_)
    subst hl
    exact hs
  | terminates l n | reports l n =>
    refine calm_setThread rfl (fun msg hmem => hmem) (fun hr => hr) (fun hl hs => ?_)
    subst hl
    exact hs

theorem Edits.calm (h : Edits P t s s') : Calm t s s' := by
  induction h with
  | done s => exact .refl t s
  | edit h _ ih => exact ih.after h.calm
  | panics s _ =>
    exact calm_setThread rfl (fun _ hmem => hmem) (fun hr => hr) (fun _ hs => by cases hs)
  | ends s h => exact calm_setThread rfl (fun _ hmem => hmem) (fun hr => hr) (fun _ _ => h)

/-- What a step of thread `t` makes of the messages: it takes one of its own, if any. -/
structure Takes (t : Nat) (s s' : Instance S w α) : Prop where
  inbox : ∀ i msg, msg ∈ (s.threads i).inbox → msg ∈ (s'.threads i).inbox ∨
    i = t ∧ (msg = .shutdown → (s'.threads t).isShuttingDown = true) ∧
      (msg = .propagatePanic → (s'.threads t).pc.isPanicked = true)
  room : ∀ i, 0 < (s.threads i).coroutines.slots.length → 0 < (s'.threads i).coroutines.slots.length
  stopping : (s'.threads t).pc.isStopping = true → (s.threads t).pc.isStopping = true

theorem Calm.takes (h : Calm t s s') : Takes t s s' :=
  ⟨fun i msg hm => .inl (h.inbox i msg hm), h.room, h.stopping⟩

theorem takes_notify {id : Nat} (h : s.notify t id = some s') : Takes t s s' := by
  obtain ⟨m, rest, hin, hedits, hshut, hpanic⟩ := edits_notify (P := fun _ => True) (fun _ _ => trivial) h
  have hcalm := hedits.calm
  refine ⟨fun i msg hmem => ?_, fun i hr => hcalm.room i ?_, fun hs => ?_⟩
  · by_cases hi : i = t
    · subst hi
      rw [hin] at hmem
      rcases List.mem_cons.1 hmem with hmsg | hmem
      · refine .inr ⟨rfl, fun he => hshut (hmsg.symm.trans he), fun he => ?_⟩
        obtain ⟨why, hwhy⟩ := hpanic (hmsg.symm.trans he)
        rw [hwhy]
        rfl
      · refine .inl (hcalm.inbox i _ ?_)
        rw [setThread_self]
        exact hmem
    · refine .inl (hcalm.inbox i _ ?_)
      rw [setThread_ne _ _ hi]
      exact hmem
  · rw [threads_setThread]
    split
    · rename_i hi
      exact hi ▸ hr
    · exact hr
  · have hs' := hcalm.stopping hs
    rw [setThread_self] at hs'
    exact hs'

/-- **A thread that does not stop** hands no `PropagatePanic` on but by panicking, and no `Shutdown` but by shutting
down. -/
theorem takes_thread {a : ThreadAct α} (ha : a ≠ .stop) (h : s.threadStep cfg t a = some s') : Takes t s s' := by
  by_cases hn : ∃ id, a = .notify id
  · obtain ⟨id, rfl⟩ := hn
    simp only [threadStep] at h
    split at h
    · exact takes_notify h
    · cases h
  · exact (edits_thread ha (fun id he => hn ⟨id, he⟩) h).calm.takes

/-! ## The panic on its way -/

theorem calm_outside {a : Action α} (ha : ∀ t b, a ≠ .thread t b) (h : s.step cfg a = some s') : Calm t s s' := by
  have hedits : Edits (fun _ => False) t s s' := edits_outside ha h t
  exact hedits.calm

/-- A step of another thread, or of no thread, takes nothing out of the queue of thread `t`. -/
theorem waits {a : Action α} (ha : ∀ b, a ≠ .thread t b) (h : s.step cfg a = some s')
    (hin : Message.propagatePanic ∈ (s.threads t).inbox) : Message.propagatePanic ∈ (s'.threads t).inbox := by
  by_cases hth : ∃ t' b, a = .thread t' b
  · obtain ⟨t', b, rfl⟩ := hth
    have hne : t ≠ t' := by
      rintro rfl
      exact ha b rfl
    obtain ⟨-, -, hb⟩ := step_thread h
    obtain ⟨inbox, pc, -, hedits⟩ := thread_edits hb
    refine hedits.calm.inbox t _ ?_
    rwa [setThread_ne _ _ hne]
  · exact (calm_outside (t := t) (fun t' b hb => hth ⟨t', b, hb⟩) h).inbox t _ hin

/-- **The panic is on its way** to the first thread, or has got there. -/
inductive Doomed (s : Instance S w α) : Prop
  | unwound : (s.threads 0).pc.isPanicked = true → Doomed s
  | ending (c : Nat) (k : Callback) (i : Nat) : (s.threads 0).pc = .exec c (.resumed k) (.terminate i .err) → Doomed s
  | propagating (c : Nat) (k : Callback) : (s.threads 0).pc = .exec c (.resumed k) .propagate → Doomed s
  | queued : Message.propagatePanic ∈ (s.threads 0).inbox → (s.threads 0).pc.isStopping = false → Doomed s

/-- A thread at the end of a coroutine does nothing else. -/
theorem threadStep_job {ret : Ret} {j : Job α} {a : ThreadAct α} (hpc : (s.threads t).pc = .exec c ret j) (hj : j ≠ .user)
    (h : s.threadStep cfg t a = some s') : s.job cfg t c ret j = some s' := by
  cases a with
  | next => simpa only [threadStep, hpc] using h
  | start => simp [threadStep, hpc, Pc.isStarting] at h
  | sched choice => simp [threadStep, sched, hpc] at h
  | register due slot tick => simp [threadStep, register, hpc] at h
  | user u => cases j <;> simp [threadStep, user, hpc] at h hj
  | _ => simp [threadStep, hpc, Pc.isPoll] at h

/-- The first loop does not end with a `PropagatePanic` in its queue. -/
def heard (s : Instance S w α) : Action α → Prop
  | .thread t .stop => t = 0 → Message.propagatePanic ∉ (s.threads 0).inbox
  | _ => True

theorem heard_of_ne (s : Instance S w α) {a : Action α} (h : a ≠ .thread 0 .stop) : s.heard a := by
  rcases a with ⟨t, b⟩ | _ | _ | _
  · cases b with
    | stop =>
      rintro rfl
      exact (h rfl).elim
    | _ => trivial
  all_goals trivial

theorem Doomed.step {a : Action α} (h : Doomed s) (hcfg : cfg.catchPanics = false) (hok : s.heard a)
    (hst : s.step cfg a = some s') : Doomed s' := by
  by_cases ha : ∃ b, a = .thread 0 b
  · obtain ⟨b, rfl⟩ := ha
    have hb : s.threadStep cfg 0 b = some s' := by
      obtain ⟨-, -, hst⟩ := step_thread hst
      exact hst
    cases h with
    | unwound hp =>
      rw [threadStep_panicked hp] at hb
      cases hb
    | ending c k i hp =>
      have hjob := threadStep_job hp (by simp) hb
      simp only [job] at hjob
      split at hjob
      · split at hjob <;> cases hjob
        · refine .ending c k (i + 1) ?_
          rw [threads_setThread]
          split
          · rename_i hi
            subst hi
            rw [threads_send, setPc, setThread_self]
          · rw [threads_send, setPc, setThread_self]
        · exact .unwound (by rw [panic, setThread_self]; rfl)
      · cases hjob
        refine .propagating c k ?_
        rw [setPc, setThread_self]
        simp only [Config.report, hcfg, Bool.false_eq_true, if_false]
    | propagating c k hp =>
      have hjob := threadStep_job hp (by simp) hb
      cases hjob
      refine .queued ?_ ?_
      · rw [threads_send]
        simp
      · rw [threads_send, setPc, setThread_self]
        rfl
    | queued hin hrun =>
      by_cases hstop : b = .stop
      · subst hstop
        exact (hok rfl hin).elim
      · have hu := takes_thread hstop hb
        rcases hu.inbox 0 _ hin with hin' | ⟨-, -, hp⟩
        · refine .queued hin' ?_
          by_contra hs
          rw [hu.stopping (by simpa using hs)] at hrun
          cases hrun
        · exact .unwound (hp rfl)
  · have hpc : (s'.threads 0).pc = (s.threads 0).pc := (step_told (fun b hb => ha ⟨b, hb⟩) hst).pc
    cases h with
    | unwound hp => exact .unwound (hpc ▸ hp)
    | ending c k i hp => exact .ending c k i (hpc.trans hp)
    | propagating c k hp => exact .propagating c k (hpc.trans hp)
    | queued hin hrun => exact .queued (waits (fun b hb => ha ⟨b, hb⟩) hst hin) (hpc ▸ hrun)

theorem room_step {a : Action α} (h : s.step cfg a = some s') (i : Nat)
    (hr : 0 < (s.threads i).coroutines.slots.length) : 0 < (s'.threads i).coroutines.slots.length := by
  by_cases hth : ∃ t b, a = .thread t b
  · obtain ⟨t, b, rfl⟩ := hth
    obtain ⟨-, -, hb⟩ := step_thread h
    obtain ⟨inbox, pc, -, hedits⟩ := thread_edits hb
    refine hedits.calm.room i ?_
    rw [threads_setThread]
    split
    · rename_i hi
      exact hi ▸ hr
    · exact hr
  · exact (calm_outside (t := 0) (fun t b hb => hth ⟨t, b, hb⟩) h).room i hr

/-! ## Nothing stops the first thread -/

theorem exit_enabled {ret : Ret} {res : Option (ExitStatus α)} (hw : 1 < w) (h : ExitChan (s.chans (.join c))) :
    ∃ m, s.exit t c ret res = some m := by
  obtain ⟨pc, hs, hsend⟩ := h.sender
  have hhead : (s.chans (.join c)).senders[0]? = some pc := by rw [hs]; rfl
  have hroom : (s.chans (.join c)).room = true := by rw [Chan.room, h.bound]
  have hmem : ∀ v b, pc = .sending v b → (s.chans (.join c)).inMemory = true := by
    intro v b he
    have hpow : 2 ^ 1 < 2 ^ w := Nat.pow_lt_pow_right (by decide) hw
    rw [Chan.inMemory, hsend v b he, decide_eq_true_eq, List.length_nil]
    omega
  have hstep : pc ≠ .dropped → ∃ r, (s.chans (.join c)).senderStep 0 (exitAct res pc) = some r := by
    intro hd
    cases pc with
    | idle => cases res <;> exact ⟨_, by simp only [exitAct, Chan.senderStep, hhead]; rfl⟩
    | sending v b =>
      simp only [exitAct, Chan.senderStep, hhead, hroom, hmem v b rfl, Bool.and_self, if_true]
      split <;> exact ⟨_, rfl⟩
    | dropped => exact (hd rfl).elim
    | _ => exact ⟨_, by simp only [exitAct, Chan.senderStep, hhead]; rfl⟩
  unfold exit
  rw [hhead]
  by_cases hd : pc = .dropped
  · subst hd
    exact ⟨_, rfl⟩
  · obtain ⟨r, hr⟩ := hstep hd
    cases pc with
    | dropped => exact (hd rfl).elim
    | _ =>
      simp only [hr]
      exact ⟨_, rfl⟩

theorem grown_hasRemaining {slab : Slab startingId Nat} (h : 0 < slab.slots.length) : (grown slab).hasRemaining = true := by
  unfold grown
  split
  · assumption
  · rename_i hfull
    have hle := slab.count_le
    rw [Slab.hasRemaining, decide_eq_true_eq, Slab.remaining] at hfull ⊢
    have hlen : (slab.grow slab.count).slots.length = slab.slots.length + slab.count := by
      rw [Slab.grow, List.length_append, List.length_replicate]
    rw [Slab.count_grow, hlen]
    omega

/-- **A thread is held up** only between two messages, at its end, or before the instance has started it. -/
theorem thread_enabled (hw : 1 < w) (hc : Custody s) (hroom : 0 < (s.threads t).coroutines.slots.length)
    (hstart : (s.threads t).pc = .starting → t = 0) (hend : (s.threads t).pc.isEnded = false)
    (hpoll : (s.threads t).pc = .poll → (s.threads t).inbox ≠ []) :
    ∃ a, a ≠ .tick ∧ ∃ m, s.threadStep cfg t a = some m := by
  cases hpc : (s.threads t).pc with
  | starting =>
    have h0 := hstart hpc
    subst h0
    exact ⟨.start, by simp, _, by simp only [threadStep, hpc]; rfl⟩
  | poll =>
    cases hin : (s.threads t).inbox with
    | nil => exact (hpoll hpc hin).elim
    | cons msg rest =>
      have hnotify : ∀ id, s.threadStep cfg t (.notify id) = s.notify t id := by
        intro id
        simp only [threadStep, hpc]
        rfl
      cases msg with
      | migration c =>
        obtain ⟨id, slab, hslab⟩ := Slab.exists_insertAt (grown_hasRemaining hroom) c
        refine ⟨.notify id, by simp, ?_⟩
        rw [hnotify]
        simp only [notify, hin, attach, setThread_self, hslab]
        exact ⟨_, rfl⟩
      | _ =>
        refine ⟨.notify 0, by simp, ?_⟩
        rw [hnotify]
        simp only [notify, hin]
        exact ⟨_, rfl⟩
  | call k => exact ⟨.sched 0, by simp, _, by simp only [threadStep, sched, hpc]; rfl⟩
  | exec c ret j =>
    have hnext : s.threadStep cfg t .next = s.job cfg t c ret j := by simp only [threadStep, hpc]
    cases j with
    | user => exact ⟨.user .yieldNow, by simp, _, by simp only [threadStep, user, hpc]; rfl⟩
    | exit res =>
      have hexit : ∃ m, s.exit t c ret res = some m := exit_enabled hw (hc.exits c)
      obtain ⟨m, hm⟩ := hexit
      exact ⟨.next, by simp, m, by rw [hnext]; exact hm⟩
    | propagate => exact ⟨.next, by simp, _, by rw [hnext]; rfl⟩
    | shutdown i =>
      refine ⟨.next, by simp, ?_⟩
      rw [hnext]
      simp only [job]
      split <;> exact ⟨_, rfl⟩
    | terminate i res =>
      refine ⟨.next, by simp, ?_⟩
      rw [hnext]
      simp only [job]
      split
      · split <;> exact ⟨_, rfl⟩
      · exact ⟨_, rfl⟩
  | register c todo hit next =>
    cases todo with
    | nil => exact ⟨.next, by simp, _, by simp only [threadStep, hpc]; rfl⟩
    | cons src todo =>
      refine ⟨.register true 0 0, by simp, ?_⟩
      cases src with
      | recv ch => exact ⟨_, by simp only [threadStep, register, hpc]; rfl⟩
      | timer n => exact ⟨_, by simp only [threadStep, register, hpc]; rfl⟩
      | io n =>
        simp only [threadStep, register, hpc]
        split <;> exact ⟨_, rfl⟩
  | done =>
    rw [hpc] at hend
    cases hend
  | panicked why =>
    rw [hpc] at hend
    cases hend
  | _ => exact ⟨.next, by simp, _, by simp only [threadStep, hpc]; rfl⟩

/-! ## What `start` does -/

/-- `Mioco::start` unwinds: the first event loop runs on its thread. -/
def startUnwound (s : Instance S w α) : Prop := (s.threads 0).pc.isPanicked = true

/-- `Mioco::start` has returned: the first loop has, the other threads have been joined, and there is a result. -/
def startReturned (s : Instance S w α) (n : Nat) : Prop :=
  (s.threads 0).pc = .done ∧ (∀ t < n, (s.threads t).pc.isEnded = true) ∧ (s.chans (.join 0)).tryRecv ≠ .empty

instance [DecidableEq α] (s : Instance S w α) (n : Nat) : Decidable (s.startReturned n) :=
  inferInstanceAs (Decidable ((s.threads 0).pc = .done ∧ (∀ t < n, (s.threads t).pc.isEnded = true) ∧
    (s.chans (.join 0)).tryRecv ≠ .empty))

/-- No thread of the instance does anything but ticks. -/
def stuck (s : Instance S w α) (cfg : Config) : Prop := ∀ t < cfg.threadNum, ∀ a, a ≠ .tick → s.threadStep cfg t a = none

theorem room_reach {bound : Nat → Option Nat} {ok : Instance S w α → Action α → Prop} {s : Instance S w α}
    (h : (mioco S w α cfg bound).Reach ok s) (i : Nat) : 0 < (s.threads i).coroutines.slots.length := by
  refine h.invariant (fun s => 0 < (s.threads i).coroutines.slots.length) (fun s hs => ?_)
    (fun _ _ _ hr _ hst => room_step hst i hr)
  cases hs
  simp only [start]
  by_cases hi : i = 0
  · subst hi
    rw [Function.update_self, List.length_cons]
    omega
  · rw [Function.update_of_ne hi, Thread.new, Slab.empty, List.length_replicate, slabCapacity]
    omega

/-- **The panic on the first thread.** -/
theorem doomed_of_panic {k : Callback} (hcfg : cfg.catchPanics = false)
    (hpc : (s.threads 0).pc = .exec c (.resumed k) .user)
    (hst : s.step cfg (.thread 0 (.user (.finish .err))) = some s') : Doomed s' := by
  simp only [Instance.step, threadStep, user, hpc] at hst
  split at hst <;> cases hst
  simp only [finish]
  split
  · exact .unwound (by rw [panic, setThread_self]; rfl)
  · by_cases hlast : s.coroutinesNum = 1
    · refine .ending c k 0 ?_
      rw [setThread_self]
      simp only [hlast, if_true]
    · refine .propagating c k ?_
      rw [setThread_self]
      simp only [hlast, if_false, Config.report, hcfg, Bool.false_eq_true]

/-- **A panic on the first thread without `catch_panics`**: `start` does not return, and is not left waiting. -/
theorem panic_unwinds_start {bound : Nat → Option Nat} {s s₁ s₂ : Instance S w α} {k : Callback} (hw : 1 < w)
    (hcfg : cfg.catchPanics = false) (hs : (mioco S w α cfg bound).Reach System.anyStep s)
    (hpc : (s.threads 0).pc = .exec c (.resumed k) .user)
    (hst : s.step cfg (.thread 0 (.user (.finish .err))) = some s₁)
    (hrun : ((mioco S w α cfg bound).startingAt s₁).Reach heard s₂) :
    ¬ s₂.startReturned cfg.threadNum ∧ (s₂.stuck cfg → s₂.startUnwound) := by
  have hn : 0 < cfg.threadNum := by
    by_contra hn
    simp [Instance.step, hn] at hst
  have hinv : Doomed s₂ ∧ Custody s₂ ∧ 0 < (s₂.threads 0).coroutines.slots.length := by
    refine hrun.invariant_after (fun m => Doomed m ∧ Custody m ∧ 0 < (m.threads 0).coroutines.slots.length)
      ⟨doomed_of_panic hcfg hpc hst, (Custody.reach hs).step hst, room_step hst 0 (room_reach hs 0)⟩ ?_
    rintro m a m' ⟨hd, hc, hr⟩ ha hstep
    exact ⟨hd.step hcfg ha hstep, hc.step hstep, room_step hstep 0 hr⟩
  obtain ⟨hd, hc, hr⟩ := hinv
  constructor
  · rintro ⟨hdone, -, -⟩
    cases hd with
    | unwound hp =>
      rw [hdone] at hp
      cases hp
    | ending c k i hp => cases hdone.symm.trans hp
    | propagating c k hp => cases hdone.symm.trans hp
    | queued hin hrun =>
      rw [hdone] at hrun
      cases hrun
  · intro hstuck
    by_contra hnot
    have hend : (s₂.threads 0).pc.isEnded = false ∧ ((s₂.threads 0).pc = .poll → (s₂.threads 0).inbox ≠ []) := by
      cases hd with
      | unwound hp => exact (hnot hp).elim
      | ending c k i hp => rw [hp]; exact ⟨rfl, fun h => by cases h⟩
      | propagating c k hp => rw [hp]; exact ⟨rfl, fun h => by cases h⟩
      | queued hin hrun =>
        refine ⟨?_, fun _ hempty => by rw [hempty] at hin; cases hin⟩
        cases hp : (s₂.threads 0).pc <;> rw [hp] at hrun <;> first | rfl | cases hrun
        exact (hnot (by rw [startUnwound, hp]; rfl)).elim
    have henabled : ∃ a, a ≠ .tick ∧ ∃ m, s₂.threadStep cfg 0 a = some m :=
      thread_enabled hw hc hr (fun _ => rfl) hend.1 hend.2
    obtain ⟨a, ha, m, hm⟩ := henabled
    rw [hstuck 0 hn a ha] at hm
    cases hm

/-- The only coroutine of one thread has panicked: `Terminate` is processed, then the `PropagatePanic`. -/
def aloneEnds : List (Action Unit) :=
  List.replicate 10 (.thread 0 .next) ++ [.thread 0 (.sched 0)] ++ List.replicate 3 (.thread 0 .next) ++
  [.thread 0 (.notify 0), .thread 0 (.notify 0)]

theorem panic_unwinds_start_alone : ∃ s s₁ s₂ : Instance fifo 64 Unit,
    s.step ⟨1, false⟩ (.thread 0 (.user (.finish .err))) = some s₁ ∧
      ((mioco fifo 64 Unit ⟨1, false⟩ (fun _ => none)).startingAt s₁).exec aloneEnds s₁ = some s₂ ∧
        (s₂.threads 0).pc = .panicked .propagated ∧ s₂.stuck ⟨1, false⟩ ∧ ¬ s₂.startReturned 1 ∧ s₂.startUnwound := by
  have hsome : ((mioco fifo 64 Unit ⟨1, false⟩ (fun _ => none)).exec
      [.thread 0 .start, .thread 0 (.sched 0), .thread 0 .next, .thread 0 (.sched 0)]
        (.start fifo 64 (fun _ => none))).any (fun s => decide ((s.threads 0).pc = .exec 0 (.resumed .spawned) .user) &&
          (s.step ⟨1, false⟩ (.thread 0 (.user (.finish .err)))).any (fun s₁ =>
            (((mioco fifo 64 Unit ⟨1, false⟩ (fun _ => none)).startingAt s₁).exec aloneEnds s₁).any (fun s₂ =>
              decide ((s₂.threads 0).pc = .panicked .propagated)))) = true := by
    decide +kernel
  obtain ⟨s, hs, hand⟩ := (Option.any_eq_true _ _).1 hsome
  obtain ⟨hpc, hafter⟩ := Bool.and_eq_true_iff.1 hand
  obtain ⟨s₁, hst, hends⟩ := (Option.any_eq_true _ _).1 hafter
  obtain ⟨s₂, hs₂, hend⟩ := (Option.any_eq_true _ _).1 hends
  have hend : (s₂.threads 0).pc = .panicked .propagated := of_decide_eq_true hend
  have hr : (mioco fifo 64 Unit ⟨1, false⟩ (fun _ => none)).Reach System.anyStep s :=
    System.reach_exec_of_forall _ _ s (.init rfl) (fun _ _ _ => trivial) hs
  have hrun : ((mioco fifo 64 Unit ⟨1, false⟩ (fun _ => none)).startingAt s₁).Reach heard s₂ := by
    refine System.reach_exec_of_forall _ _ s₂ (.init rfl) (fun a ha m => ?_) hs₂
    have hstop : a ≠ .thread 0 .stop := by
      rintro rfl
      simp [aloneEnds] at ha
    exact m.heard_of_ne hstop
  have hstuck : s₂.stuck ⟨1, false⟩ := by
    intro t ht a _
    obtain rfl : t = 0 := by simpa using ht
    exact threadStep_panicked (by rw [hend, Pc.isPanicked])
  obtain ⟨hnot, hunwound⟩ := panic_unwinds_start (by decide) rfl hr (of_decide_eq_true hpc) hst hrun
  exact ⟨s, s₁, s₂, hst, hs₂, hend, hstuck, hnot, hunwound hstuck⟩

/-- Two threads: coroutine 0 spawns coroutine 1, which goes to thread 1, and returns. -/
def twoThreads : List (Action Unit) :=
  [.thread 0 .start, .thread 1 .start, .thread 0 (.sched 0), .thread 0 .next, .thread 0 (.sched 0),
   .thread 0 (.user (.spawn 2)), .thread 0 (.user (.finish (.ok ())))] ++ List.replicate 11 (.thread 0 .next) ++
  [.thread 0 (.sched 0), .thread 0 .next, .thread 0 .next, .thread 0 (.sched 0), .thread 0 .next, .thread 0 (.sched 0),
   .thread 0 .next, .thread 0 .next, .thread 0 .next, .thread 1 (.sched 0), .thread 1 .next, .thread 1 .next,
   .thread 1 (.notify 1), .thread 1 .next, .thread 1 (.sched 0)]

/-- Coroutine 1, the last one, has panicked: thread 1 ends with the panic, thread 0 with the `Terminate`. -/
def bothEnd : List (Action Unit) :=
  List.replicate 11 (.thread 1 .next) ++
  [.thread 1 (.sched 0), .thread 1 .next, .thread 1 .next, .thread 1 (.notify 0), .thread 1 (.notify 0),
   .thread 0 (.notify 0), .thread 0 .stop, .thread 0 .next]

/-- **`start` returns** although a coroutine panicked on thread 1 of two. -/
theorem start_returns_after_panic : ¬ ∀ (S : Sched) (cfg : Config) (bound : Nat → Option Nat)
    (s s₁ s₂ : Instance S 64 Unit) (t c : Nat) (k : Callback), cfg.catchPanics = false →
      (mioco S 64 Unit cfg bound).Reach System.anyStep s → (s.threads t).pc = .exec c (.resumed k) .user →
        s.step cfg (.thread t (.user (.finish .err))) = some s₁ →
          ((mioco S 64 Unit cfg bound).startingAt s₁).Reach System.anyStep s₂ →
            ¬ s₂.startReturned cfg.threadNum ∧ (s₂.stuck cfg → s₂.startUnwound) := by
  intro hall
  have hsome : ((mioco fifo 64 Unit ⟨2, false⟩ (fun _ => none)).exec twoThreads (.start fifo 64 (fun _ => none))).any
      (fun s => decide ((s.threads 1).pc = .exec 1 (.resumed .ready) .user) &&
        (s.step ⟨2, false⟩ (.thread 1 (.user (.finish .err)))).any (fun s₁ =>
          (((mioco fifo 64 Unit ⟨2, false⟩ (fun _ => none)).startingAt s₁).exec bothEnd s₁).any (fun s₂ =>
            decide (s₂.startReturned 2)))) = true := by
    decide +kernel
  obtain ⟨s, hs, hand⟩ := (Option.any_eq_true _ _).1 hsome
  obtain ⟨hpc, hafter⟩ := Bool.and_eq_true_iff.1 hand
  obtain ⟨s₁, hst, hrun⟩ := (Option.any_eq_true _ _).1 hafter
  obtain ⟨s₂, hs₂, hret⟩ := (Option.any_eq_true _ _).1 hrun
  have hr : (mioco fifo 64 Unit ⟨2, false⟩ (fun _ => none)).Reach System.anyStep s :=
    System.reach_exec_of_forall _ _ s (.init rfl) (fun _ _ _ => trivial) hs
  have hr₂ : ((mioco fifo 64 Unit ⟨2, false⟩ (fun _ => none)).startingAt s₁).Reach System.anyStep s₂ :=
    System.reach_exec_of_forall _ _ s₂ (.init rfl) (fun _ _ _ => trivial) hs₂
  exact (hall fifo ⟨2, false⟩ _ s s₁ s₂ 1 1 .ready rfl hr (of_decide_eq_true hpc) hst hr₂).1 (of_decide_eq_true hret)

end Instance
end Mioco

import Mioco.LedgerSteps
import Mioco.InstanceChans
import Mioco.Edits
/-!
# The live count, the slabs and `Terminate` over whole runs (src/thread.rs, src/coroutine.rs, src/mod.rs)

A handle outlives its coroutine: `Handler::shutdown` kills a coroutine through a handle of its own and leaves the one
in a queue or in the scheduler behind.  `orderly` says that such a handle is not put to use, nor a loop that is gone.
-/
namespace Mioco

open Lib (Slab System sum_change)

namespace Instance
variable {S : Sched} {w : Nat} {α : Type} {n : Nat} {s : Instance S w α} {t c : Nat}

instance (s : Instance S w α) (t c : Nat) : Decidable (s.Attached t c) :=
  inferInstanceAs (Decidable (c < s.coN ∧ (s.cos c).state ≠ .finished ∧ (s.cos c).handler = some t))

instance (s : Instance S w α) (t c : Nat) : Decidable (s.Enterable t c) :=
  inferInstanceAs (Decidable ((s.cos c).state = .finished ∨ s.Attached t c))

instance (s : Instance S w α) (t : Nat) : (cmd : Cmd) → Decidable (s.CommandOk t cmd)
  | .ret => isTrue trivial
  | .resume i => inferInstanceAs (Decidable (∀ h, (s.threads t).held[i]? = some h → s.Enterable t h.co))
  | .drop i => inferInstanceAs (Decidable (∀ h, (s.threads t).held[i]? = some h → s.Enterable t h.co))
  | .migrate i _ => inferInstanceAs (Decidable (∀ h, (s.threads t).held[i]? = some h → s.Attached t h.co))

/-- What goes on at `pc` of thread `t` uses no stale handle and no closed loop. -/
def nextOk (n : Nat) (s : Instance S w α) (t : Nat) : Pc α → Prop
  | .stopping => ∀ h, ((s.threads t).held ++ (s.threads t).spawned ++ (s.threads t).ready).head? = some h →
      s.Enterable t h.co
  | .deregister _ (.migrate _ threadId) => threadId < n ∧ (s.threads threadId).isOpen = true
  | .exec c _ (.exit res) => ∀ l, s.exitLoop c res = some l → (s.threads l).isOpen = true
  | _ => True

instance (n : Nat) (s : Instance S w α) (t : Nat) : (pc : Pc α) → Decidable (s.nextOk n t pc)
  | .stopping => inferInstanceAs (Decidable (∀ h : Handle,
      ((s.threads t).held ++ (s.threads t).spawned ++ (s.threads t).ready).head? = some h → s.Enterable t h.co))
  | .deregister _ (.migrate _ threadId) => inferInstanceAs (Decidable (threadId < n ∧ (s.threads threadId).isOpen = true))
  | .exec c _ (.exit res) => inferInstanceAs (Decidable (∀ l, s.exitLoop c res = some l → (s.threads l).isOpen = true))
  | .deregister _ .event | .deregister _ (.woken _) => isTrue trivial
  | .exec _ _ .user | .exec _ _ (.shutdown _) | .exec _ _ (.terminate _ _) | .exec _ _ .propagate => isTrue trivial
  | .starting | .poll | .call _ | .deliverSpawned | .deliverReady _ | .register _ _ _ _ | .resumed _ _ | .shutdown _ _
  | .done | .panicked _ => isTrue trivial

/-- **A step uses no stale handle and no closed loop.** -/
def orderly (n : Nat) (s : Instance S w α) : Action α → Prop
  | .thread t (.sched choice) =>
    s.CommandOk t (S.next choice (s.threads t).held (s.threads t).sched s.shared).1
  | .thread t .next => s.nextOk n t (s.threads t).pc
  | _ => True

instance (n : Nat) (s : Instance S w α) : (a : Action α) → Decidable (s.orderly n a)
  | .thread t (.sched choice) =>
    inferInstanceAs (Decidable (s.CommandOk t (S.next choice (s.threads t).held (s.threads t).sched s.shared).1))
  | .thread t .next => inferInstanceAs (Decidable (s.nextOk n t (s.threads t).pc))
  | .thread _ .start | .thread _ .tick | .thread _ (.notify _) | .thread _ .ready | .thread _ (.timeout _)
  | .thread _ .stop | .thread _ (.register _ _ _) | .thread _ (.user _) => isTrue trivial
  | .sender _ _ _ | .receiver _ _ | .ioReady _ _ _ => isTrue trivial

namespace Ledger

theorem exit {s' : Instance S w α} (h : Ledger n s) (hw : Wired s) (ht : t < n) {ret : Ret}
    {res : Option (ExitStatus α)} (hpc : (s.threads t).pc = .exec c ret (.exit res))
    (hok : ∀ l, s.exitLoop c res = some l → (s.threads l).isOpen = true) (hst : s.exit t c ret res = some s') :
    Ledger n s' := by
  have ha : Acting n s t := ⟨ht, by rw [hpc]; rfl, by rw [hpc]; rfl⟩
  unfold Instance.exit at hst
  split at hst
  · cases hst
  · cases hst
    refine h.leave ha (.inl (h.ended t c (by rw [hpc]; rfl)).2) ?_
    rintro rfl
    exact h.stopping t (by rw [hpc]; rfl)
  · rename_i pc hnd hpc0
    split at hst
    · cases hst
    · rename_i chan nt hsend
      cases hst
      have h' : Ledger n (s.setChan (.join c) chan) := h.congr rfl rfl rfl rfl rfl
      refine h'.notifyFrom ht hpc ?_ ?_
      · rintro rfl
        rcases (senderStep_move hsend).shared.2.2 with hn | hn
        · cases hn
        · obtain ⟨htok, hnone⟩ := maybeNotifyReceiver_unwrapNone hn.symm
          have := hw _ htok
          rw [hnone] at this
          cases this
      · rintro l r rfl
        refine hok l ?_
        rw [exitLoop, hpc0]
        simp only [hsend]

theorem job {s' : Instance S w α} (h : Ledger n s) (hw : Wired s) (ht : t < n) {cfg : Config} (hcfg : cfg.threadNum = n)
    (hcatch : cfg.catchPanics = true) {ret : Ret} {j : Job α} (hpc : (s.threads t).pc = .exec c ret j)
    (hok : ∀ res, j = .exit res → ∀ l, s.exitLoop c res = some l → (s.threads l).isOpen = true)
    (hst : s.job cfg t c ret j = some s') : Ledger n s' := by
  cases j with
  | user => cases hst
  | shutdown i =>
    have hat : s.Attached t c := h.attends t c (by rw [hpc]; rfl)
    simp only [Instance.job] at hst
    split at hst <;> cases hst
    · have h' : Ledger n (s.setPc t (.exec c ret (.shutdown (i + 1)))) :=
        h.moveExec ht hpc rfl (fun d hd => by cases hd; exact hat) rfl rfl of_none
      exact h'.send rfl
    · have h' : Ledger n { s with inShutdown := Function.update s.inShutdown c (decide (cfg.threadNum ≤ i)) } :=
        h.congr rfl rfl rfl rfl rfl
      exact h'.moveExec (c := c) ht hpc rfl (fun d hd => by cases hd; exact hat) rfl rfl of_none
  | terminate i res =>
    simp only [Instance.job] at hst
    split at hst
    · rename_i hi
      rw [if_pos (h.open_of_terminating (t := t) (by omega) (by rw [hpc]; rfl))] at hst
      cases hst
      refine h.terminateNext ht hpc (by omega) (fun k => ?_) rfl rfl rfl rfl
      rw [threads_setThread, threads_send, threads_send, Instance.setPc, threads_setThread, threads_setThread]
      by_cases hki : k = i <;> by_cases hkt : k = t <;> simp [hki, hkt] <;> split <;> simp_all
    · cases hst
      refine h.terminateLast ht hpc (by omega) ?_
      cases res <;> simp [Config.report, hcatch]
  | propagate =>
    have := (h.caught t).2
    rw [hpc] at this
    cases this
  | exit res => exact h.exit hw ht hpc (hok res rfl) hst

theorem threadStep {s' : Instance S w α} (h : Ledger n s) (hw : Wired s) (ht : t < n) {cfg : Config}
    (hcfg : cfg.threadNum = n) (hcatch : cfg.catchPanics = true) {a : ThreadAct α} (hok : s.orderly n (.thread t a))
    (hst : s.threadStep cfg t a = some s') : Ledger n s' := by
  have hact : ∀ {pc}, (s.threads t).pc = pc → pc.isEnded = false → pc.terminating = none → Acting n s t :=
    fun hp h1 h2 => ⟨ht, hp ▸ h1, hp ▸ h2⟩
  cases a with
  | start =>
    simp only [Instance.threadStep] at hst
    split at hst
    · rename_i hs
      cases hst
      have ha := hact (Pc.eq_starting hs.1) rfl rfl
      have h' : Ledger n { s with shared := (S.spawnThread s.shared).2 } := h.congr rfl rfl rfl rfl rfl
      have ha' : Acting n { s with shared := (S.spawnThread s.shared).2 } t := ⟨ha.lt, ha.ended, ha.terminating⟩
      refine callback (h'.keep ?_ ?_ ?_) (ha'.setThread ?_) _ _ <;> rfl
    · cases hst
  | tick =>
    simp only [Instance.threadStep] at hst
    split at hst <;> cases hst
    exact h.callback (hact (Pc.eq_poll ‹_ ∧ _›.1) rfl rfl) _ _
  | notify id =>
    simp only [Instance.threadStep] at hst
    split at hst
    · exact h.notify ht ‹_› hst
    · cases hst
  | ready =>
    simp only [Instance.threadStep] at hst
    split at hst <;> cases hst
    rename_i hpc _
    have ha := hact hpc rfl rfl
    refine ready (h.keep ?_ ?_ ?_) (ha.setThread ?_) <;> rfl
  | timeout slot =>
    simp only [Instance.threadStep] at hst
    split at hst <;> cases hst
    rename_i hpc _
    have ha := hact hpc rfl rfl
    refine ready (h.keep ?_ ?_ ?_) (ha.setThread ?_) <;> rfl
  | stop =>
    simp only [Instance.threadStep] at hst
    split at hst <;> cases hst
    rename_i hs
    exact h.setPc (hact (Pc.eq_poll hs.1) rfl rfl) of_none rfl rfl rfl (fun _ => hs.2) of_none
  | sched choice => exact h.sched ht (fun _ _ => hok) hst
  | register due slot tick => exact h.register ht hst
  | user u => exact h.user ht hcatch hst
  | next =>
    have hok : s.nextOk n t (s.threads t).pc := hok
    simp only [Instance.threadStep] at hst
    split at hst
    · cases hst
      exact h.deliverSpawned (hact ‹_› rfl rfl)
    · cases hst
      exact h.deliverReady (hact ‹_› rfl rfl)
    · rename_i hpc
      refine h.job hw ht hcfg hcatch hpc (fun res hj => ?_) hst
      subst hj
      rwa [hpc] at hok
    · cases hst
      exact h.registered ht ‹_›
    · rename_i hpc
      cases hst
      refine h.deregister ht hcfg hpc (fun k threadId hn => ?_)
      subst hn
      rwa [hpc] at hok
    · cases hst
      exact h.afterResume (hact ‹_› rfl rfl)
    · cases hst
      exact h.shutdownNext (hact ‹_› rfl rfl)
    · rename_i hpc
      cases hst
      rw [hpc] at hok
      exact h.stopNext ht hpc hok
    · cases hst

theorem senderStep {s' : Instance S w α} (h : Ledger n s) {k i : Nat} {a : SenderAct (ExitStatus α)}
    (hst : s.senderStep k i a = some s') : Ledger n s' := by
  obtain ⟨chan, out, -, hs⟩ := senderStep_some hst
  have h' : Ledger n (s.setChan (.user k) chan) := h.congr rfl rfl rfl rfl rfl
  rcases hs with rfl | ⟨l, r, -, rfl⟩
  · exact h'
  · exact h'.send rfl

theorem receiverStep {s' : Instance S w α} (h : Ledger n s) {ch : ChanId} {a : RecvAct}
    (hst : s.receiverStep ch a = some s') : Ledger n s' := by
  obtain ⟨chan, taken, k, rfl, -⟩ := receiverStep_some hst
  exact h.congr rfl rfl rfl rfl rfl

/-- **A step keeps the ledger.** -/
theorem step {s' : Instance S w α} {cfg : Config} (h : Ledger cfg.threadNum s) (hw : Wired s)
    (hcatch : cfg.catchPanics = true) {a : Action α} (hok : s.orderly cfg.threadNum a) (hst : s.step cfg a = some s') :
    Ledger cfg.threadNum s' := by
  cases a with
  | thread t a =>
    obtain ⟨ht, -, hth⟩ := step_thread hst
    exact h.threadStep hw ht rfl hcatch hok hth
  | sender k i a => exact h.senderStep hst
  | receiver ch a => exact h.receiverStep hst
  | ioReady t k e =>
    obtain ⟨r, -, rfl⟩ := step_ioReady hst
    exact h.keep rfl rfl rfl

/-- The slab the first coroutine is spawned into. -/
theorem start_slab : (Slab.empty slabCapacity : Slab startingId Nat).insertAt startingId 0 =
    some ⟨some 0 :: List.replicate (slabCapacity - 1) none⟩ := rfl

theorem start (hn : 0 < n) (bound : Nat → Option Nat) : Ledger n (Instance.start S w bound : Instance S w α) := by
  obtain ⟨-, hget, hcount, -⟩ := Slab.insertAt_some start_slab
  generalize hs : (Instance.start S w bound : Instance S w α) = s
  have hth : ∀ t, s.threads t = if t = 0 then { Thread.new S α with
      coroutines := ⟨some 0 :: List.replicate (slabCapacity - 1) none⟩, spawned := [Handle.new 0] }
      else Thread.new S α := by
    intro t
    rw [← hs, Instance.start]
    exact Function.update_apply (fun _ => Thread.new S α) 0 _ t
  have hcos : ∀ c, s.cos c = if c = 0 then Coroutine.new startingId (some 0) else Coroutine.new 0 none := by
    intro c
    rw [← hs, Instance.start]
    exact Function.update_apply (fun _ => Coroutine.new 0 none) 0 (Coroutine.new startingId (some 0)) c
  have hN : s.coN = 1 := by rw [← hs]; rfl
  have hnum : s.coroutinesNum = 1 := by rw [← hs]; rfl
  have hbr : s.broadcasts = 0 := by rw [← hs]; rfl
  have hat : ∀ t c, s.Attached t c ↔ t = 0 ∧ c = 0 := by
    intro t c
    rw [Attached, hN, hcos]
    by_cases hc : c = 0
    · rw [if_pos hc]
      simp [hc, Coroutine.new, eq_comm]
    · simp [hc]
  have hpc : ∀ t, (s.threads t).pc = .starting := fun t => by rw [hth]; split <;> rfl
  have hin : ∀ t, (s.threads t).inbox = [] := fun t => by rw [hth]; split <;> rfl
  have htd : ∀ t, (s.threads t).terminated = false := fun t => by rw [hth]; split <;> rfl
  have hter : ∀ t, (s.threads t).terminates = 0 := fun t => by rw [hth]; split <;> rfl
  have hslab : ∀ t id, (s.threads t).coroutines.get id = if t = 0 ∧ id = startingId then some 0 else none := by
    intro t id
    rw [hth]
    by_cases ht : t = 0
    · rw [if_pos ht]
      simp only
      rw [hget, Slab.get_empty]
      simp [ht]
    · rw [if_neg ht, if_neg (fun h => ht h.1)]
      exact Slab.get_empty _ _
  have htr : ∀ c, ¬ s.Travelling c := by
    rintro c ⟨hc, -, hh⟩
    rw [hN] at hc
    rw [hcos, if_pos (by omega)] at hh
    cases hh
  refine ⟨⟨fun t id c hg => ?_, fun t c hac => ?_, fun c => ?_, ?_, fun c hf => ?_, fun t c hc => ?_, fun t c hc => ?_,
    fun t why hw => ?_, fun t hop => ?_, fun t hst => ?_, fun t _ => ?_, fun t => ?_⟩,
    ⟨fun _ => ⟨by omega, hter⟩, by omega, fun h => by omega, fun t => ?_, fun t i hi => ?_, fun h => by omega⟩⟩
  · rw [hslab] at hg
    split at hg <;> cases hg
    rename_i h0
    rw [hat, hcos, if_pos rfl]
    exact ⟨⟨h0.1, rfl⟩, h0.2.symm⟩
  · obtain ⟨rfl, rfl⟩ := (hat t c).1 hac
    rw [hslab, hcos, if_pos rfl, if_pos ⟨rfl, rfl⟩]
    exact ⟨hn, rfl⟩
  · rw [if_neg (htr c)]
    simp [Thread.carried, hin]
  · have h0 := sum_change (f := fun _ => 0) (g := fun t => (s.threads t).coroutines.count) hn
      (fun i hi => by simp only [hth, if_neg hi]; exact Slab.count_empty _)
    simp only [hth 0, if_pos, Finset.sum_const_zero] at h0
    rw [hcount, Slab.count_empty] at h0
    simp [Thread.migrations, hin, hnum, h0]
  · rw [hcos] at hf
    split at hf <;> cases hf
  · rw [hpc] at hc
    cases hc
  · rw [hpc] at hc
    cases hc
  · rw [hpc] at hw
    cases hw
  · rw [hth] at hop
    split at hop <;> cases hop
  · rw [hpc] at hst
    cases hst
  · rw [hpc]
    rfl
  · rw [hin, hpc]
    exact ⟨List.not_mem_nil, rfl⟩
  · rw [hter, hin, htd]
    rfl
  · rw [hpc] at hi
    cases hi

end Ledger

theorem Wired.start (bound : Nat → Option Nat) : Wired (Instance.start S w bound : Instance S w α) := by
  rintro (k | k) h <;> cases h

/-- **The ledger holds in every state** of a run that uses no stale handle and no closed loop. -/
theorem ledger {cfg : Config} {bound : Nat → Option Nat} (hn : 0 < cfg.threadNum) (hcatch : cfg.catchPanics = true)
    {s : Instance S w α} (hs : (mioco S w α cfg bound).Reach (fun s a => s.orderly cfg.threadNum a) s) :
    Ledger cfg.threadNum s ∧ Wired s := by
  refine hs.invariant (fun s => Ledger cfg.threadNum s ∧ Wired s) (fun s h0 => ?_) (fun s a s' h hok hst => ?_)
  · obtain rfl : s = Instance.start S w bound := h0
    exact ⟨.start hn bound, .start bound⟩
  · exact ⟨h.1.step h.2 hcatch hok hst, h.2.step hst⟩

end Instance
end Mioco

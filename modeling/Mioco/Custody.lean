import Mioco.Ledger
import Mioco.InstanceChans
/-!
# Which thread runs a coroutine, and how it ends (src/coroutine.rs, src/mod.rs)

`StepKind` sorts the steps by what they do to the coroutines that run or have ended: their threads, their exit status
and its channel.  It is what the runs of any scheduler, with or without `catch_panics`, are followed with.
-/
namespace Mioco

open Lib (Slab)

namespace Pc
variable {α : Type}

/-- The coroutine whose code the thread runs, or whose sources it registers. -/
@[simp] def engaged : Pc α → Option (Nat × Option (Job α))
  | exec c _ j => some (c, some j)
  | register _ [] none _ => none
  | register c _ _ _ => some (c, none)
  | _ => none

end Pc

namespace Job
variable {α : Type}

/-- The function of the coroutine has not ended. -/
@[simp] def live : Job α → Bool
  | user | shutdown _ => true
  | _ => false

/-- The exit status will not be sent any more. -/
@[simp] def reported : Job α → Bool
  | exit none => true
  | _ => false

end Job

namespace Instance
variable {S : Sched} {w : Nat} {α : Type} {s m s' : Instance S w α} {t c : Nat}

/-- No coroutine changes its thread, ends or is killed, and the other threads stay where they are. -/
structure Quiet (t : Nat) (s s' : Instance S w α) : Prop where
  handler : ∀ c, (s'.cos c).handler = (s.cos c).handler
  finished : ∀ c, (s'.cos c).state = .finished ↔ (s.cos c).state = .finished
  killed : ∀ c, (s'.cos c).killed = (s.cos c).killed
  cleared : ∀ c, (s.cos c).blockedOn = [] → (s'.cos c).state = .finished → (s'.cos c).blockedOn = []
  pc : ∀ i, i ≠ t → (s'.threads i).pc = (s.threads i).pc
  carried : ∀ i c, (s'.threads i).carried c = (s.threads i).carried c
  chans : ∀ c, SameExit (s.chans (.join c)) (s'.chans (.join c))
  received : ∀ c, s'.received (.join c) = s.received (.join c)
  coN : s'.coN = s.coN
  lastJump : s'.lastJump = s.lastJump

theorem Quiet.refl (t : Nat) (s : Instance S w α) : Quiet t s s :=
  ⟨fun _ => rfl, fun _ => Iff.rfl, fun _ => rfl, fun _ h _ => h, fun _ _ => rfl, fun _ _ => rfl,
    fun _ => .rfl' _, fun _ => rfl, rfl, rfl⟩

theorem Quiet.trans (h : Quiet t s m) (h' : Quiet t m s') : Quiet t s s' where
  handler c := (h'.handler c).trans (h.handler c)
  finished c := (h'.finished c).trans (h.finished c)
  killed c := (h'.killed c).trans (h.killed c)
  cleared c hb hf := h'.cleared c (h.cleared c hb ((h'.finished c).1 hf)) hf
  pc i hi := (h'.pc i hi).trans (h.pc i hi)
  carried i c := (h'.carried i c).trans (h.carried i c)
  chans c := (h.chans c).trans (h'.chans c)
  received c := (h'.received c).trans (h.received c)
  coN := h'.coN.trans h.coN
  lastJump := h'.lastJump.trans h.lastJump

theorem quiet_setThread {th : Thread S α} (h : ∀ c, th.carried c = (s.threads t).carried c) :
    Quiet t s (s.setThread t th) := by
  refine ⟨fun _ => rfl, fun _ => Iff.rfl, fun _ => rfl, fun _ hb _ => hb, fun i hi => ?_, fun i c => ?_,
    fun _ => .rfl' _, fun _ => rfl, rfl, rfl⟩
  · rw [setThread_ne _ _ hi]
  · rw [threads_setThread]
    split
    · rename_i hi
      subst hi
      exact h c
    · exact rfl

theorem quiet_setPc (pc : Pc α) : Quiet t s (s.setPc t pc) := quiet_setThread (fun _ => rfl)

theorem quiet_setCo {co : Coroutine} (hh : co.handler = (s.cos c).handler)
    (hf : co.state = .finished ↔ (s.cos c).state = .finished) (hk : co.killed = (s.cos c).killed)
    (hb : (s.cos c).blockedOn = [] → co.state = .finished → co.blockedOn = []) : Quiet t s (s.setCo c co) := by
  refine ⟨fun c' => ?_, fun c' => ?_, fun c' => ?_, fun c' => ?_, fun _ _ => rfl, fun _ _ => rfl,
    fun _ => .rfl' _, fun _ => rfl, rfl, rfl⟩
  all_goals
    by_cases hc : c' = c
    · subst hc
      rw [setCo_self]
      assumption
    · rw [setCo_ne _ _ hc]
      try exact fun h _ => h

theorem chans_setChan (ch ch' : ChanId) (chan : Chan w (ExitStatus α) Reg Nat) :
    (s.setChan ch chan).chans ch' = if ch' = ch then chan else s.chans ch' := Function.update_apply _ _ _ _

theorem quiet_setChan {ch : ChanId} {chan : Chan w (ExitStatus α) Reg Nat} (h : SameExit (s.chans ch) chan) :
    Quiet t s (s.setChan ch chan) := by
  refine ⟨fun _ => rfl, fun _ => Iff.rfl, fun _ => rfl, fun _ h _ => h, fun _ _ => rfl, fun _ _ => rfl,
    fun c => ?_, fun _ => rfl, rfl, rfl⟩
  rw [chans_setChan]
  split
  · rename_i hc
    exact hc ▸ h
  · exact .rfl' _

theorem quiet_of_eq (hcos : s'.cos = s.cos) (hth : s'.threads = s.threads) (hch : s'.chans = s.chans)
    (hre : s'.received = s.received) (hn : s'.coN = s.coN) (hj : s'.lastJump = s.lastJump) : Quiet t s s' := by
  refine ⟨fun _ => by rw [hcos], fun _ => by rw [hcos], fun _ => by rw [hcos], fun _ h _ => by rwa [hcos],
    fun _ _ => by rw [hth], fun _ _ => by rw [hth], fun _ => ?_, fun _ => by rw [hre], hn, hj⟩
  rw [hch]
  exact .rfl' _

theorem quiet_send (l : Nat) {msg : Message} (h : msg.isMigration = false) : Quiet t s (s.send l msg) := by
  refine ⟨fun _ => rfl, fun _ => Iff.rfl, fun _ => rfl, fun _ hb _ => hb, fun i _ => ?_, fun i c => ?_,
    fun _ => .rfl' _, fun _ => rfl, rfl, rfl⟩
  · rw [threads_send]
  · have hmsg : Message.carries c msg = false := by cases msg <;> first | rfl | cases h
    have hnew : (if i = l then [msg] else []).countP (Message.carries c) = 0 := by
      split
      · rw [List.countP_singleton, hmsg]
        rfl
      · rfl
    rw [threads_send, Thread.carried, Thread.carried, List.countP_append, hnew, Nat.add_zero]

/-- **Control of thread `t` goes to where no coroutine runs, or into one that has not ended**, on its own thread. -/
structure Lands (t : Nat) (s s' : Instance S w α) : Prop where
  handler : ∀ c, (s'.cos c).handler = (s.cos c).handler
  finished : ∀ c, (s'.cos c).state = .finished ↔ (s.cos c).state = .finished
  killed : ∀ c, (s'.cos c).killed = true → (s.cos c).killed = true ∨ (s.cos c).state = .finished ∨
    (s'.threads t).pc.engaged = some (c, some .user) ∨ (s'.threads t).pc = .panicked .strayHandle
  cleared : ∀ c, (s.cos c).blockedOn = [] → (s'.cos c).state = .finished → (s'.cos c).blockedOn = []
  pc : ∀ i, i ≠ t → (s'.threads i).pc = (s.threads i).pc
  carried : ∀ i c, (s'.threads i).carried c = (s.threads i).carried c
  chans : ∀ c, SameExit (s.chans (.join c)) (s'.chans (.join c))
  received : ∀ c, s'.received (.join c) = s.received (.join c)
  coN : s'.coN = s.coN
  enters : ∀ c j, (s'.threads t).pc.engaged = some (c, j) →
    (s.cos c).handler = some t ∧ (s.cos c).state ≠ .finished ∧ (j = none ∨ j = some .user)
  jumped : ∀ c, s'.lastJump c = s.lastJump c ∨ (s'.threads t).pc.engaged = some (c, some .user)
  /-- `killed` is what `jump_in` goes by -/
  jump : ∀ c, (s'.threads t).pc.engaged = some (c, some .user) →
    ∃ j, s'.lastJump c = some j ∧ (j = .resume ↔ (s'.cos c).killed = false)

theorem Quiet.lands (h : Quiet t s s') (hpc : (s'.threads t).pc.engaged = none) : Lands t s s' where
  handler := h.handler
  finished := h.finished
  killed c hk := .inl ((h.killed c) ▸ hk)
  cleared := h.cleared
  pc := h.pc
  carried := h.carried
  chans := h.chans
  received := h.received
  coN := h.coN
  enters c j hj := by
    rw [hpc] at hj
    cases hj
  jumped c := .inl (by rw [h.lastJump])
  jump c hj := by
    rw [hpc] at hj
    cases hj

theorem Lands.after (h' : Lands t m s') (h : Quiet t s m) : Lands t s s' where
  handler c := (h'.handler c).trans (h.handler c)
  finished c := (h'.finished c).trans (h.finished c)
  killed c hk := by
    rw [← h.killed c, ← h.finished c]
    exact h'.killed c hk
  cleared c hb hf := h'.cleared c (h.cleared c hb ((h'.finished c).1 hf)) hf
  pc i hi := (h'.pc i hi).trans (h.pc i hi)
  carried i c := (h'.carried i c).trans (h.carried i c)
  chans c := (h.chans c).trans (h'.chans c)
  received c := (h'.received c).trans (h.received c)
  coN := h'.coN.trans h.coN
  enters c j hj := by
    rw [← h.handler c, ne_eq, ← h.finished c]
    exact h'.enters c j hj
  jumped c := by
    rw [← h.lastJump]
    exact h'.jumped c
  jump := h'.jump

theorem carried_send (l i c' : Nat) : ((s.send l (.migration c)).threads i).carried c' =
    (s.threads i).carried c' + if i = l ∧ c' = c then 1 else 0 := by
  rw [threads_send, Thread.carried, Thread.carried, List.countP_append]
  congr 1
  by_cases hi : i = l
  · rw [if_pos hi, List.countP_singleton]
    by_cases hcc : c' = c
    · simp [hi, hcc]
    · simp [hi, hcc, Ne.symm hcc]
  · rw [if_neg hi, if_neg (fun hand => hi hand.1)]
    rfl

/-! ## Where control goes -/

theorem lands_setThread {th : Thread S α} (hin : ∀ c, th.carried c = (s.threads t).carried c)
    (hpc : th.pc.engaged = none) : Lands t s (s.setThread t th) :=
  (quiet_setThread hin).lands (by rw [setThread_self, hpc])

theorem lands_setPc {pc : Pc α} (hpc : pc.engaged = none) : Lands t s (s.setPc t pc) :=
  lands_setThread (fun _ => rfl) hpc

theorem lands_panic (why : Panic) : Lands t s (s.panic t why) :=
  lands_setThread (fun _ => rfl) rfl

/-- The finished coroutines block on nothing. -/
def Cleared (s : Instance S w α) : Prop := ∀ c, (s.cos c).state = .finished → (s.cos c).blockedOn = []

theorem Cleared.lands (h : Cleared s) (hl : Lands t s s') : Cleared s' :=
  fun c hf => hl.cleared c (h c ((hl.finished c).1 hf)) hf

theorem Cleared.quiet (h : Cleared s) (hq : Quiet t s s') : Cleared s' :=
  fun c hf => hq.cleared c (h c ((hq.finished c).1 hf)) hf

/-- Thread `t` goes on to register the sources of coroutine `c`, which is its own. -/
theorem lands_engage {pc : Pc α} (hh : (s.cos c).handler = some t) (hf : (s.cos c).state ≠ .finished)
    (hpc : pc.engaged = some (c, none)) : Lands t s (s.setPc t pc) := by
  have hq : Quiet t s (s.setPc t pc) := quiet_setThread (fun _ => rfl)
  refine ⟨hq.handler, hq.finished, fun _ hk => .inl hk, hq.cleared, hq.pc, hq.carried, hq.chans, hq.received, hq.coN,
    fun c' j hj => ?_, fun _ => .inl rfl, fun c' hj => ?_⟩
  · rw [setPc, setThread_self, hpc] at hj
    cases hj
    exact ⟨hh, hf, .inl rfl⟩
  · rw [setPc, setThread_self, hpc] at hj
    cases hj

theorem lands_register {next : AfterRegister}
    (h : (s.cos c).blockedOn = [] ∨ (s.cos c).handler = some t ∧ (s.cos c).state ≠ .finished) :
    Lands t s (s.setPc t (.register c (s.cos c).blockedOn none next)) := by
  cases hb : (s.cos c).blockedOn with
  | nil => exact lands_setPc rfl
  | cons src rest =>
    rcases h with h | ⟨hh, hf⟩
    · rw [h] at hb
      cases hb
    · exact lands_engage hh hf rfl

theorem lands_leave (ret : Ret)
    (h : (s.cos c).blockedOn = [] ∨ (s.cos c).handler = some t ∧ (s.cos c).state ≠ .finished) :
    Lands t s (s.leave t c ret) := by
  cases ret with
  | resumed k => exact lands_register h
  | _ => exact lands_setPc rfl

theorem jump_resume : s.jump c = .resume ↔ (s.cos c).killed = false := by
  unfold jump
  split
  · rename_i hk
    split <;> simp [hk]
  · rename_i hk
    simp [hk]

theorem lands_jumpIn (hc : Cleared s) (ret : Ret) : Lands t s (s.jumpIn t c ret) := by
  unfold jumpIn
  split
  · rename_i hf
    exact lands_leave ret (.inl (hc c hf))
  · rename_i hf
    split
    · rename_i hh
      have hq : Quiet t s (s.setPc t (.exec c ret .user)) := quiet_setPc _
      refine ⟨hq.handler, hq.finished, fun _ hk => .inl hk, hq.cleared, hq.pc, hq.carried, hq.chans, hq.received, hq.coN,
        fun c' j hj => ?_, fun c' => ?_, fun c' hj => ?_⟩
      · rw [setPc, setThread_self] at hj
        cases hj
        exact ⟨hh, hf, .inr rfl⟩
      · by_cases hcc : c' = c
        · subst hcc
          rw [setPc, setThread_self]
          exact .inr rfl
        · exact .inl (Function.update_of_ne hcc _ _)
      · rw [setPc, setThread_self] at hj
        cases hj
        exact ⟨s.jump c, Function.update_self _ _ _, jump_resume⟩
    · exact lands_panic _

theorem lands_kill (hc : Cleared s) (ret : Ret) : Lands t s (s.kill t c ret) := by
  have hedit : ∀ c', ((s.setCo c { s.cos c with killed := true }).cos c').handler = (s.cos c').handler ∧
      (((s.setCo c { s.cos c with killed := true }).cos c').state = .finished ↔ (s.cos c').state = .finished) ∧
      ((s.setCo c { s.cos c with killed := true }).cos c').blockedOn = (s.cos c').blockedOn ∧
      (c' ≠ c → ((s.setCo c { s.cos c with killed := true }).cos c').killed = (s.cos c').killed) := by
    intro c'
    by_cases hcc : c' = c
    · subst hcc
      rw [setCo_self]
      exact ⟨rfl, Iff.rfl, rfl, fun hne => (hne rfl).elim⟩
    · rw [setCo_ne _ _ hcc]
      exact ⟨rfl, Iff.rfl, rfl, fun _ => rfl⟩
  have hclear : Cleared (s.setCo c { s.cos c with killed := true }) := by
    intro c' hf
    rw [(hedit c').2.2.1]
    exact hc c' ((hedit c').2.1.1 hf)
  have h := lands_jumpIn (t := t) (c := c) hclear ret
  refine ⟨fun c' => (h.handler c').trans (hedit c').1, fun c' => (h.finished c').trans (hedit c').2.1, fun c' hk => ?_,
    fun c' hb hf => h.cleared c' ((hedit c').2.2.1 ▸ hb) hf, h.pc, h.carried, h.chans, h.received, h.coN, fun c' j hj => ?_, h.jumped,
    h.jump⟩
  · by_cases hcc : c' = c
    · subst hcc
      rw [kill, jumpIn]
      split
      · rename_i hf
        exact .inr (.inl ((hedit _).2.1.1 hf))
      · split
        · exact .inr (.inr (.inl (by rw [setPc, setThread_self]; rfl)))
        · exact .inr (.inr (.inr (by rw [panic, setThread_self])))
    · rcases h.killed c' hk with h1 | h1
      · exact .inl ((hedit c').2.2.2 hcc ▸ h1)
      · exact .inr (h1.imp_left (hedit c').2.1.1)
  · obtain ⟨h1, h2, h3⟩ := h.enters c' j hj
    exact ⟨(hedit c').1 ▸ h1, fun hf => h2 ((hedit c').2.1.2 hf), h3⟩

theorem lands_callback (k : Callback) (h : Option Handle) : Lands t s (s.callback t k h) :=
  lands_setThread (fun _ => rfl) rfl

theorem Pc.engaged_of_free {pc : Pc α} (h : pc.isFree = true) : pc.engaged = none := by
  cases pc <;> first | rfl | cases h

theorem Flow.lands (h : Flow t s s') (hc : Cleared s) : Lands t s s' := by
  induction h with
  | stays s hpc => exact (Quiet.refl t s).lands (Pc.engaged_of_free hpc)
  | goes s held spawned ready sched pc hpc => exact lands_setThread (fun _ => rfl) (Pc.engaged_of_free hpc)
  | jumps s c k => exact lands_jumpIn hc _
  | kills s c ret _ => exact lands_kill hc ret
  | ends s _ => exact lands_setThread (fun _ => rfl) rfl
  | @moves s _ held spawned ready _ ih =>
    have hq : Quiet t s (s.setThread t { s.threads t with held := held, spawned := spawned, ready := ready }) :=
      quiet_setThread (fun _ => rfl)
    exact (ih (hc.quiet hq)).after hq

theorem lands_registered (hc : Cleared s) {hit : Option (Event × Reg)} {next : AfterRegister}
    (hf : hit ≠ none → (s.cos c).state ≠ .finished) : Lands t s (s.registered t c hit next) := by
  cases hit with
  | none => exact (afterRegister_flow s t c next).lands hc
  | some hit =>
    obtain ⟨e, r⟩ := hit
    have hlive := hf (Option.some_ne_none _)
    exact (lands_setPc rfl).after (quiet_setCo rfl (by simp [hlive]) rfl (fun h _ => h))

theorem quiet_clearTimeout (timeout : Option (Nat × Nat)) : Quiet t s (s.clearTimeout t timeout) ∧
    ((s.clearTimeout t timeout).threads t).pc = (s.threads t).pc := by
  cases timeout with
  | none => exact ⟨.refl t s, rfl⟩
  | some e =>
    obtain ⟨slot, tick⟩ := e
    simp only [clearTimeout]
    split
    · exact ⟨quiet_setThread (fun _ => rfl), by rw [setThread_self]⟩
    · exact ⟨.refl t s, rfl⟩

theorem lands_deregisterSrc (hpc : (s.threads t).pc.engaged = none) (src : Src) :
    Lands t s (s.deregisterSrc t src) := by
  cases src with
  | recv ch =>
    have hq : Quiet t s (s.setChan ch (s.chans ch).deregister) := quiet_setChan ⟨rfl, rfl, rfl, rfl⟩
    exact hq.lands hpc
  | timer n =>
    obtain ⟨hq, hsame⟩ := quiet_clearTimeout (s := s) (t := t) (s.timeouts n)
    exact hq.lands (hsame ▸ hpc)
  | io n =>
    simp only [deregisterSrc]
    split
    · exact lands_setThread (fun _ => rfl) hpc
    · exact lands_panic _

theorem lands_deregister {cfg : Config} {next : AfterDeregister} (hc : Cleared s)
    (hpc : (s.threads t).pc = .deregister c next) (hm : ∀ k i, (s.cos c).blockedOn = [] → next ≠ .migrate k i) :
    Lands t s (s.deregister cfg t c next) := by
  unfold deregister
  split
  · rename_i src rest hb
    have hq : Quiet t s (s.setCo c { s.cos c with blockedOn := rest }) :=
      quiet_setCo rfl Iff.rfl rfl (fun h _ => by rw [h] at hb; cases hb)
    exact (lands_deregisterSrc (by rw [setCo_threads, hpc]; rfl) src).after hq
  · rename_i hb
    cases next with
    | event => exact lands_callback _ _
    | woken next => exact (afterRegister_flow s t c next).lands hc
    | migrate k i => exact (hm k i hb rfl).elim

theorem lands_afterResume (k : Callback) : Lands t s (s.afterResume t c k) := by
  have hq : ∀ (co : Coroutine) (th : Thread S α), co.handler = (s.cos c).handler → co.killed = (s.cos c).killed →
      (co.state = .finished ↔ (s.cos c).state = .finished) → co.blockedOn = (s.cos c).blockedOn →
      th.inbox = (s.threads t).inbox → th.pc = .call k → Lands t s ((s.setCo c co).setThread t th) := by
    intro co th hh hk hf hb hin hpc
    refine (lands_setThread (fun c' => ?_) (by rw [hpc]; rfl)).after (quiet_setCo hh hf hk (fun h _ => hb.trans h))
    rw [Thread.carried, hin]
    exact rfl
  simp only [afterResume]
  split
  · rename_i hs
    exact hq _ _ rfl rfl (by simp [hs]) rfl rfl rfl
  · rename_i hs
    exact hq _ _ rfl rfl Iff.rfl rfl rfl rfl
  · exact hq _ _ rfl rfl Iff.rfl rfl rfl rfl
  · exact hq _ _ rfl rfl Iff.rfl rfl rfl rfl

/-! ## The callbacks of mio -/

theorem lands_ready (r : Reg) (e : EventSet) : Lands t s (s.ready t r e) := by
  unfold ready
  split
  · exact lands_setPc rfl
  · rename_i c hget
    split
    · rename_i hb
      split
      · exact lands_panic _
      · exact (lands_setPc rfl).after (quiet_setCo rfl (by simp [hb]) rfl (fun h _ => h))
    · exact lands_setPc rfl

theorem carried_tail {th : Thread S α} {msg : Message} {rest : List Message} (h : th.inbox = msg :: rest)
    (hm : ∀ c, msg ≠ .migration c) (c : Nat) : rest.countP (Message.carries c) = th.carried c := by
  have hno : Message.carries c msg = false := by cases msg <;> first | rfl | exact (hm _ rfl).elim
  rw [Thread.carried, h, List.countP_cons, hno, if_neg Bool.false_ne_true, Nat.add_zero]

/-! ## The sorts of steps -/

/-- From one piece of a coroutine's code, or of its end, to the next one. -/
inductive JobStep (cfg : Config) : Job α → Job α → Prop
  | shutdown : JobStep cfg .user (.shutdown 0)
  | shutdownNext (i : Nat) : JobStep cfg (.shutdown i) (.shutdown (i + 1))
  | shutdownEnd (i : Nat) : JobStep cfg (.shutdown i) .user
  | terminateNext (i : Nat) (res : ExitStatus α) : JobStep cfg (.terminate i res) (.terminate (i + 1) res)
  | report (i : Nat) (res : ExitStatus α) : JobStep cfg (.terminate i res) (cfg.report res)
  | propagate : JobStep cfg .propagate (.exit none)

/-- The end of coroutine `c` edits nothing but `c`. -/
structure Ends (t c : Nat) (s s' : Instance S w α) : Prop where
  co : s'.cos = Function.update s.cos c { s.cos c with blockedOn := [], state := .finished }
  pc : ∀ i, i ≠ t → (s'.threads i).pc = (s.threads i).pc
  inbox : ∀ i, (s'.threads i).inbox = (s.threads i).inbox
  chans : s'.chans = s.chans
  received : s'.received = s.received
  coN : s'.coN = s.coN
  lastJump : s'.lastJump = s.lastJump

/-- **What a step does to the coroutines that run or have ended.** -/
inductive StepKind (cfg : Config) (s : Instance S w α) : Action α → Instance S w α → Prop
  | lands (t : Nat) (a : ThreadAct α) {s' : Instance S w α} : Lands t s s' →
      (∀ c j, (s.threads t).pc.engaged = some (c, some j) → ∃ why, (s'.threads t).pc = .panicked why ∧ j ≠ .user) →
      StepKind cfg s (.thread t a) s'
  | switches (t c : Nat) (ret : Ret) (u : UserAct α) {s' : Instance S w α} : (s.threads t).pc = .exec c ret .user →
      ((∃ l, u = .select l) ∨ u = .yieldNow) → Lands t s s' → StepKind cfg s (.thread t (.user u)) s'
  | job (t c : Nat) (ret : Ret) (j j' : Job α) (a : ThreadAct α) {s' : Instance S w α} :
      (s.threads t).pc = .exec c ret j → JobStep cfg j j' → Quiet t s s' → (s'.threads t).pc = .exec c ret j' →
      StepKind cfg s (.thread t a) s'
  | spawn (t c : Nat) (ret : Ret) (id : Nat) (slab : Slab startingId Nat) : (s.threads t).pc = .exec c ret .user →
      StepKind cfg s (.thread t (.user (.spawn id)))
        ((({ s with coN := s.coN + 1, coroutinesNum := s.coroutinesNum + 1 }.setCo c
          { s.cos c with children := (s.cos c).children ++ [s.coN] }).setCo s.coN (Coroutine.new id (some t))).setThread t
            { s.threads t with coroutines := slab, pc := .exec c ret .user })
  | finish (t c : Nat) (ret : Ret) (res : ExitStatus α) {s' : Instance S w α} : (s.threads t).pc = .exec c ret .user →
      Ends t c s s' → ((s'.threads t).pc = .panicked .slabRemove ∨ (s'.threads t).pc = .exec c ret (.terminate 0 res) ∨
        (s'.threads t).pc = .exec c ret (cfg.report res)) → StepKind cfg s (.thread t (.user (.finish res))) s'
  | exits (t c : Nat) (ret : Ret) (res : Option (ExitStatus α)) (pc : SenderPc w (ExitStatus α))
      (chan : Chan w (ExitStatus α) Reg Nat) (n : Notify Reg Nat) (a : ThreadAct α) {m s' : Instance S w α} :
      (s.threads t).pc = .exec c ret (.exit res) → (s.chans (.join c)).senders[0]? = some pc → pc ≠ .dropped →
      (s.chans (.join c)).senderStep 0 (exitAct res pc) = some (chan, n) → m = s.setChan (.join c) chan →
      Quiet t m s' → ((s'.threads t).pc = .exec c ret (.exit none) ∨ ∃ why, (s'.threads t).pc = .panicked why) →
      StepKind cfg s (.thread t a) s'
  | exited (t c : Nat) (ret : Ret) (res : Option (ExitStatus α)) (a : ThreadAct α) {s' : Instance S w α} :
      (s.threads t).pc = .exec c ret (.exit res) → (s.chans (.join c)).senders[0]? = some .dropped → Lands t s s' →
      StepKind cfg s (.thread t a) s'
  | lost (t c : Nat) (why : Panic) (a : ThreadAct α) {m s' : Instance S w α} : (s.threads t).pc.engaged = none →
      (s.cos c).handler = some t → m = s.setCo c { s.cos c with handler := none } → Lands t m s' →
      why = .slabRemove ∨ why = .noSuchThread c ∨ why = .notAttached c → (s'.threads t).pc = .panicked why →
      StepKind cfg s (.thread t a) s'
  | detach (t c l : Nat) (k : Callback) (slab : Slab startingId Nat) (a : ThreadAct α) {m : Instance S w α} :
      (s.threads t).pc.engaged = none → (s.cos c).handler = some t →
      m = (s.setCo c { s.cos c with handler := none }).setThread t { s.threads t with
        coroutines := slab, pc := .call k } → StepKind cfg s (.thread t a) (m.send l (.migration c))
  | attach (t c id : Nat) (slab : Slab startingId Nat) (rest : List Message) (a : ThreadAct α) :
      (s.threads t).inbox = .migration c :: rest → (s.threads t).pc = .poll →
      StepKind cfg s (.thread t a) ((s.setCo c { s.cos c with id := id, handler := some t }).setThread t
        { s.threads t with inbox := rest, coroutines := slab, pc := .register c (s.cos c).blockedOn none .attached })
  | outside {a : Action α} {s' : Instance S w α} : (∀ t b, a ≠ .thread t b) → Quiet 0 s s' →
      (s'.threads 0).pc = (s.threads 0).pc → StepKind cfg s a s'
  | receiver (c : Nat) (a : RecvAct) {s' : Instance S w α} : s'.cos = s.cos → s'.threads = s.threads → s'.coN = s.coN →
      s'.lastJump = s.lastJump →
      (∀ c', c' ≠ c → s'.chans (.join c') = s.chans (.join c') ∧ s'.received (.join c') = s.received (.join c')) →
      ExitRecv (s.chans (.join c)) (s.received (.join c)) (s'.chans (.join c)) (s'.received (.join c)) →
      StepKind cfg s (.receiver (.join c) a) s'

section kinds
variable {cfg : Config}

theorem kind_detach {k : Callback} {l : Nat} (a : ThreadAct α) (hpc : (s.threads t).pc.engaged = none) :
    StepKind cfg s (.thread t a) (s.detach cfg t c k l) := by
  have hfree : ∀ c j, (s.threads t).pc.engaged = some (c, some j) → False := by
    intro c j h
    rw [hpc] at h
    cases h
  simp only [detach]
  split
  · rename_i hh
    split
    · exact .lost t c _ a hpc hh rfl (lands_panic _) (.inl rfl) (by rw [panic, setThread_self])
    · rename_i slab hslab
      have hq : Quiet t (s.setCo c { s.cos c with handler := none }) ((s.setCo c { s.cos c with handler := none }).setThread t
          { s.threads t with coroutines := slab, pc := .call k }) := quiet_setThread (fun _ => rfl)
      split
      · exact .lost t c _ a hpc hh rfl ((lands_panic _).after hq) (.inr (.inl rfl)) (by rw [panic, setThread_self])
      · split
        · exact .detach t c l k slab a hpc hh rfl
        · exact .lost t c _ a hpc hh rfl ((lands_panic _).after hq) (.inr (.inr rfl)) (by rw [panic, setThread_self])
  · exact .lands t a (lands_panic _) (fun c j h => (hfree c j h).elim)

theorem finish_ends (ret : Ret) (res : ExitStatus α) : Ends t c s (s.finish cfg t c ret res) ∧
    (((s.finish cfg t c ret res).threads t).pc = .panicked .slabRemove ∨
      ((s.finish cfg t c ret res).threads t).pc = .exec c ret (.terminate 0 res) ∨
      ((s.finish cfg t c ret res).threads t).pc = .exec c ret (cfg.report res)) := by
  have hends : ∀ (m : Instance S w α) (th : Thread S α), m.threads = s.threads → m.chans = s.chans →
      m.received = s.received → m.coN = s.coN → m.lastJump = s.lastJump →
      m.cos = Function.update s.cos c { s.cos c with blockedOn := [], state := .finished } →
      th.inbox = (s.threads t).inbox → Ends t c s (m.setThread t th) := by
    intro m th hth hch hre hn hj hco hin
    refine ⟨hco, fun i hi => ?_, fun i => ?_, hch, hre, hn, hj⟩
    · rw [setThread_ne _ _ hi, hth]
    · rw [threads_setThread]
      split
      · rename_i hi
        rw [hin, hi]
      · rw [hth]
  simp only [finish]
  split
  · exact ⟨hends _ _ rfl rfl rfl rfl rfl rfl rfl, .inl (by rw [panic, setThread_self])⟩
  · refine ⟨hends _ _ rfl rfl rfl rfl rfl rfl rfl, .inr ?_⟩
    rw [setThread_self]
    split
    · exact .inl rfl
    · exact .inr rfl

theorem kind_finish {ret : Ret} {res : ExitStatus α} (hpc : (s.threads t).pc = .exec c ret .user) :
    StepKind cfg s (.thread t (.user (.finish res))) (s.finish cfg t c ret res) :=
  .finish t c ret res hpc (finish_ends ret res).1 (finish_ends ret res).2

theorem kind_user {u : UserAct α} {ret : Ret} (hpc : (s.threads t).pc = .exec c ret .user)
    (hh : (s.cos c).handler = some t) (hf : (s.cos c).state ≠ .finished) (h : s.user cfg t u = some s') :
    StepKind cfg s (.thread t (.user u)) s' := by
  cases u with
  | select l =>
    simp only [user, hpc, Option.some.injEq] at h
    subst h
    refine .switches t c ret _ hpc (.inl ⟨l, rfl⟩) ((lands_leave ret (.inr ?_)).after (Quiet.trans
      (m := { s with srcs := selectAdd s.srcs (s.cos c).blockedOn.length l }) (quiet_of_eq rfl rfl rfl rfl rfl rfl)
        (quiet_setCo rfl (by simp [hf]) rfl (fun _ h => by cases h))))
    rw [setCo_self]
    exact ⟨hh, by simp⟩
  | yieldNow =>
    simp only [user, hpc, Option.some.injEq] at h
    subst h
    refine .switches t c ret _ hpc (.inr rfl) ((lands_leave ret (.inr ?_)).after (quiet_setCo rfl (by simp [hf]) rfl
      (fun h _ => h)))
    rw [setCo_self]
    exact ⟨hh, by simp⟩
  | spawn id =>
    simp only [user, hpc] at h
    split at h <;> cases h
    exact .spawn t c ret id _ hpc
  | shutdown =>
    simp only [user, hpc, Option.some.injEq] at h
    subst h
    have hq : Quiet t s { s with shutdownCalled := true } := quiet_of_eq rfl rfl rfl rfl rfl rfl
    exact .job t c ret _ _ _ hpc .shutdown (hq.trans (quiet_setPc _)) (by rw [setPc, setThread_self])
  | finish res =>
    simp only [user, hpc, Option.some.injEq] at h
    subst h
    exact kind_finish hpc

theorem kind_exit {ret : Ret} {res : Option (ExitStatus α)} (a : ThreadAct α)
    (hpc : (s.threads t).pc = .exec c ret (.exit res))
    (hc : (s.cos c).blockedOn = [] ∨ (s.cos c).handler = some t ∧ (s.cos c).state ≠ .finished)
    (h : s.exit t c ret res = some s') : StepKind cfg s (.thread t a) s' := by
  unfold exit at h
  split at h
  · cases h
  · rename_i hd
    cases h
    exact .exited t c ret res a hpc hd (lands_leave ret hc)
  · rename_i pc hd hs
    split at h
    · cases h
    · rename_i chan n hstep
      cases h
      refine .exits t c ret res pc chan n a hpc hs (fun hp => hd (hp ▸ rfl)) hstep rfl ?_ ?_
      · unfold notifyFrom
        split
        · exact quiet_setPc _
        · split
          · exact (quiet_setPc _).trans (quiet_send _ rfl)
          · exact quiet_setThread (fun _ => rfl)
        · exact quiet_setThread (fun _ => rfl)
      · unfold notifyFrom
        split
        · exact .inl (by rw [setPc, setThread_self])
        · split
          · exact .inl (by rw [threads_send, setPc, setThread_self])
          · exact .inr ⟨_, by rw [panic, setThread_self]⟩
        · exact .inr ⟨_, by rw [panic, setThread_self]⟩

theorem kind_job {ret : Ret} {j : Job α} (a : ThreadAct α) (hpc : (s.threads t).pc = .exec c ret j)
    (hc : (s.cos c).blockedOn = [] ∨ (s.cos c).handler = some t ∧ (s.cos c).state ≠ .finished)
    (h : s.job cfg t c ret j = some s') : StepKind cfg s (.thread t a) s' := by
  have hset : ∀ pc : Pc α, Quiet t s (s.setPc t pc) ∧ ((s.setPc t pc).threads t).pc = pc :=
    fun pc => ⟨quiet_setThread (fun _ => rfl), by rw [setPc, setThread_self]⟩
  have hsend : ∀ (l : Nat) (msg : Message) (pc : Pc α), msg.isMigration = false →
      Quiet t s ((s.setPc t pc).send l msg) ∧ (((s.setPc t pc).send l msg).threads t).pc = pc :=
    fun l msg pc hm => ⟨(hset pc).1.trans (quiet_send l hm), by rw [threads_send]; exact (hset pc).2⟩
  cases j with
  | user => cases h
  | shutdown i =>
    simp only [job] at h
    split at h <;> cases h
    · exact .job t c ret _ _ a hpc (.shutdownNext i) (hsend i .shutdown _ rfl).1 (hsend i .shutdown _ rfl).2
    · have hq : Quiet t s { s with inShutdown := Function.update s.inShutdown c (decide (cfg.threadNum ≤ i)) } := by
        apply quiet_of_eq <;> constructor
      exact .job t c ret _ _ a hpc (.shutdownEnd i) (hq.trans (quiet_setPc _)) (by rw [setPc, setThread_self])
  | terminate i res =>
    simp only [job] at h
    split at h
    · split at h <;> cases h
      · obtain ⟨hq, hsame⟩ := hsend i .terminate (.exec c ret (.terminate (i + 1) res)) rfl
        generalize (s.setPc t (.exec c ret (.terminate (i + 1) res))).send i .terminate = m at hq hsame
        refine .job t c ret _ _ a hpc (.terminateNext i res) (hq.trans ?_) ?_
        · refine ⟨fun _ => rfl, fun _ => Iff.rfl, fun _ => rfl, fun _ h _ => h, fun i' hi' => ?_, fun i' c' => ?_,
            fun _ => .rfl' _, fun _ => rfl, rfl, rfl⟩
          · rw [threads_setThread]
            split
            · rename_i hi
              rw [hi]
            · rfl
          · rw [threads_setThread]
            split
            · rename_i hi
              rw [hi]
              exact rfl
            · exact rfl
        · rw [threads_setThread]
          split
          · rename_i hi
            exact (congrArg (fun x => (m.threads x).pc) hi).symm.trans hsame
          · exact hsame
      · exact .lands t a (lands_panic _) (fun c' j' hj => by
          rw [hpc] at hj
          cases hj
          exact ⟨_, by rw [panic, setThread_self], by simp⟩)
    · cases h
      exact .job t c ret _ _ a hpc (.report i res) (hset _).1 (hset _).2
  | propagate =>
    cases h
    exact .job t c ret _ _ a hpc .propagate (hsend t .propagatePanic _ rfl).1 (hsend t .propagatePanic _ rfl).2
  | exit res => exact kind_exit a hpc hc h

/-- What the sorting of a step needs of the state before it. -/
structure Engaged (s : Instance S w α) : Prop where
  cleared : Cleared s
  attached : ∀ t c j, (s.threads t).pc.engaged = some (c, j) → (s.cos c).handler = some t
  live : ∀ t c j, (s.threads t).pc.engaged = some (c, j) → j.all Job.live = true → (s.cos c).state ≠ .finished

theorem Engaged.leaves (h : Engaged s) {ret : Ret} {j : Job α} (hpc : (s.threads t).pc = .exec c ret j) :
    (s.cos c).blockedOn = [] ∨ (s.cos c).handler = some t ∧ (s.cos c).state ≠ .finished := by
  by_cases hf : (s.cos c).state = .finished
  · exact .inl (h.cleared c hf)
  · exact .inr ⟨h.attached t c (some j) (by rw [hpc]; rfl), hf⟩

theorem kind_lands {a : ThreadAct α} (hfree : ∀ c j, (s.threads t).pc.engaged ≠ some (c, some j)) (h : Lands t s s') :
    StepKind cfg s (.thread t a) s' :=
  .lands t a h (fun c j hj => (hfree c j hj).elim)

theorem kind_next (he : Engaged s) (h : s.threadStep cfg t .next = some s') : StepKind cfg s (.thread t .next) s' := by
  simp only [threadStep] at h
  split at h
  · rename_i hpc
    cases h
    exact kind_lands (fun c j => by rw [hpc]; simp) ((deliverSpawned_flow s t).lands he.cleared)
  · rename_i hpc
    cases h
    exact kind_lands (fun c j => by rw [hpc]; simp) ((deliverReady_flow s t _).lands he.cleared)
  · rename_i c ret j hpc
    exact kind_job _ hpc (he.leaves hpc) h
  · rename_i c hit next hpc
    cases h
    refine kind_lands (fun c j => by rw [hpc]; cases hit <;> simp) (lands_registered he.cleared (fun hhit => ?_))
    have heng : (s.threads t).pc.engaged = some (c, none) := by
      rw [hpc]
      cases hit with
      | none => exact (hhit rfl).elim
      | some x => rfl
    exact he.live t c none heng rfl
  · rename_i c next hpc
    cases h
    have hfree : (s.threads t).pc.engaged = none := by rw [hpc]; rfl
    by_cases hm : ∃ k l, next = .migrate k l ∧ (s.cos c).blockedOn = []
    · obtain ⟨k, l, rfl, hb⟩ := hm
      have hd : s.deregister cfg t c (.migrate k l) = s.detach cfg t c k l := by
        unfold deregister
        rw [hb]
        rfl
      rw [hd]
      exact kind_detach _ hfree
    · refine kind_lands (fun c j => by rw [hfree]; simp) (lands_deregister he.cleared hpc ?_)
      exact fun k l hb hn => hm ⟨k, l, hn, hb⟩
  · rename_i c k hpc
    cases h
    exact kind_lands (fun c j => by rw [hpc]; simp) (lands_afterResume k)
  · rename_i i last hpc
    cases h
    exact kind_lands (fun c j => by rw [hpc]; simp) ((shutdownNext_flow s t hpc).lands he.cleared)
  · rename_i hpc
    cases h
    exact kind_lands (fun c j => by rw [hpc]; simp) ((stopNext_flow s t hpc).lands he.cleared)
  · cases h

theorem kind_register (he : Engaged s) {due : Bool} {slot tick : Nat} (h : s.register t due slot tick = some s') :
    StepKind cfg s (.thread t (.register due slot tick)) s' := by
  simp only [register] at h
  split at h
  · rename_i c src todo hit next hpc
    have heng : (s.threads t).pc.engaged = some (c, none) := by rw [hpc]; cases hit <;> rfl
    have hh := he.attached t c none heng
    have hf := he.live t c none heng rfl
    have hfree : ∀ c j, (s.threads t).pc.engaged ≠ some (c, some j) := fun c' j => by rw [heng]; simp
    -- the rest of the list is asked by the same thread
    have hgo : ∀ (m : Instance S w α) (th : Thread S α) (hit' : Option (Event × Reg)), Quiet t s (m.setThread t th) →
        th.pc = .register c todo hit' next → Lands t s (m.setThread t th) := by
      intro m th hit' hq hth
      refine ⟨hq.handler, hq.finished, fun c' hk => .inl (hq.killed c' ▸ hk), hq.cleared, hq.pc, hq.carried, hq.chans,
        hq.received, hq.coN, fun c' j hj => ?_, fun c' => .inl (by rw [hq.lastJump]), fun c' hj => ?_⟩
      all_goals
        rw [setThread_self, hth] at hj
        unfold Pc.engaged at hj
        split at hj
        · cases ‹Pc.register c todo hit' next = Pc.exec _ _ _›
        · cases hj
        · rename_i heq
          cases hj
          try
            cases heq
            exact ⟨hh, hf, .inl rfl⟩
        · cases hj
    split at h
    · rename_i ch
      cases h
      refine kind_lands hfree (hgo _ _ _ (Quiet.trans (quiet_setChan ?_) (quiet_setThread (fun _ => rfl))) rfl)
      unfold Chan.register
      split <;> exact ⟨rfl, rfl, rfl, rfl⟩
    · rename_i n
      split at h
      · cases h
        exact kind_lands hfree (hgo _ _ _ (quiet_setThread (fun _ => rfl)) rfl)
      · split at h
        · cases h
          have hq : Quiet t s { s with timeouts := Function.update s.timeouts n (some (slot, tick)) } :=
            quiet_of_eq rfl rfl rfl rfl rfl rfl
          exact kind_lands hfree (hgo _ _ _ (hq.trans (quiet_setThread (fun _ => rfl))) rfl)
        · cases h
    · split at h
      · cases h
        exact kind_lands hfree (hgo _ _ _ (quiet_setThread (fun _ => rfl)) rfl)
      · cases h
        exact kind_lands hfree (lands_panic _)
  · cases h

theorem kind_thread (he : Engaged s) {a : ThreadAct α} (h : s.threadStep cfg t a = some s') :
    StepKind cfg s (.thread t a) s' := by
  have hpoll : ∀ {pc : Pc α}, pc.isPoll = true → pc.engaged = none := by
    intro pc hp
    rw [Pc.eq_poll hp]
    rfl
  cases a with
  | start =>
    simp only [threadStep] at h
    split at h
    · rename_i hs
      cases h
      have hq : ∀ sh, Quiet t s { s with shared := sh } := fun sh => quiet_of_eq rfl rfl rfl rfl rfl rfl
      exact kind_lands (fun c j => by rw [Pc.eq_starting hs.1]; simp)
        ((lands_callback _ _).after ((hq _).trans (quiet_setThread (fun _ => rfl))))
    · cases h
  | tick =>
    simp only [threadStep] at h
    split at h
    · rename_i hp
      cases h
      exact kind_lands (fun c j => by rw [hpoll hp.1]; simp) (lands_callback _ _)
    · cases h
  | notify id =>
    simp only [threadStep] at h
    split at h
    · rename_i hp
      have hfree : ∀ c j, (s.threads t).pc.engaged ≠ some (c, some j) := fun c j => by rw [hpoll hp]; simp
      simp only [notify] at h
      split at h
      · cases h
      · rename_i m rest hin
        have hq : (∀ c, m ≠ .migration c) → ∀ th : Thread S α, th.inbox = rest → Quiet t s (s.setThread t th) :=
          fun hm th hth => quiet_setThread (fun c => by rw [Thread.carried, hth]; exact carried_tail hin hm c)
        cases m with
        | channelMsg r =>
          cases h
          exact kind_lands hfree ((lands_ready _ _).after (hq (by simp) _ rfl))
        | migration c =>
          simp only [attach] at h
          split at h
          · cases h
            rename_i slab hslab
            have hattach : StepKind cfg s (.thread t (.notify id)) _ :=
              .attach t c id slab rest (.notify id) hin (Pc.eq_poll hp)
            simpa only [setThread, setCo, Function.update_idem, Function.update_self] using hattach
          · cases h
        | propagatePanic =>
          cases h
          exact kind_lands hfree ((lands_panic _).after (hq (by simp) _ rfl))
        | shutdown =>
          cases h
          refine kind_lands hfree ((lands_setThread (fun c => ?_) rfl).after (hq (by simp) _ rfl))
          rw [setThread_self]
          exact rfl
        | terminate =>
          cases h
          refine kind_lands hfree ((lands_setThread (fun c => ?_) (by exact hpoll hp)).after (hq (by simp) _ rfl))
          rw [setThread_self]
          exact rfl
    · cases h
  | ready =>
    simp only [threadStep] at h
    split at h
    · rename_i hp _
      cases h
      exact kind_lands (fun c j => by rw [hp]; simp) ((lands_ready _ _).after (quiet_setThread (fun _ => rfl)))
    · cases h
  | timeout slot =>
    simp only [threadStep] at h
    split at h
    · rename_i hp _
      cases h
      exact kind_lands (fun c j => by rw [hp]; simp) ((lands_ready _ _).after (quiet_setThread (fun _ => rfl)))
    · cases h
  | stop =>
    simp only [threadStep] at h
    split at h
    · rename_i hp
      cases h
      exact kind_lands (fun c j => by rw [hpoll hp.1]; simp) (lands_setPc rfl)
    · cases h
  | sched choice =>
    simp only [threadStep, sched] at h
    split at h
    · rename_i k hp
      cases h
      have hq : ∀ sh sc, Quiet t s ({ s with shared := sh }.setThread t { s.threads t with sched := sc }) := by
        intro sh sc
        have h1 : Quiet t s { s with shared := sh } := quiet_of_eq rfl rfl rfl rfl rfl rfl
        exact h1.trans (quiet_setThread (fun _ => rfl))
      exact kind_lands (fun c j => by rw [hp]; simp)
        (((command_flow _ t k _).lands (he.cleared.quiet (hq _ _))).after (hq _ _))
    · cases h
  | register due slot tick => exact kind_register he h
  | user u =>
    simp only [threadStep] at h
    by_cases hpc : ∃ c ret, (s.threads t).pc = .exec c ret .user
    · obtain ⟨c, ret, hpc⟩ := hpc
      have heng : (s.threads t).pc.engaged = some (c, some .user) := by rw [hpc]; rfl
      exact kind_user hpc (he.attached t c _ heng) (he.live t c _ heng rfl) h
    · simp only [user] at h
      split at h
      · rename_i c ret heq
        exact (hpc ⟨c, ret, heq⟩).elim
      · cases h
  | next => exact kind_next he h

theorem kind_sender {n i : Nat} {a : SenderAct (ExitStatus α)} (h : s.senderStep n i a = some s') :
    StepKind cfg s (.sender n i a) s' := by
  have hout : ∀ t (b : ThreadAct α), Action.sender n i a ≠ .thread t b := fun _ _ hh => by cases hh
  have hq : ∀ chan, Quiet 0 s (s.setChan (.user n) chan) := by
    intro chan
    refine ⟨fun _ => rfl, fun _ => Iff.rfl, fun _ => rfl, fun _ h _ => h, fun _ _ => rfl, fun _ _ => rfl,
      fun c => ?_, fun _ => rfl, rfl, rfl⟩
    rw [chans_setChan, if_neg (fun hh => by cases hh)]
    exact .rfl' _
  obtain ⟨chan, out, -, rfl | ⟨l, r, -, rfl⟩⟩ := senderStep_some h
  · exact .outside hout (hq _) rfl
  · exact .outside hout ((hq _).trans (quiet_send _ rfl)) (by rw [threads_send]; rfl)

theorem kind_receiver {ch : ChanId} {a : RecvAct} (h : s.receiverStep ch a = some s') :
    StepKind cfg s (.receiver ch a) s' := by
  obtain ⟨chan, taken, n, rfl, -, -, hrecv⟩ := receiverStep_some h
  cases ch with
  | user k =>
    refine .outside (fun _ _ hh => by cases hh) ⟨fun _ => rfl, fun _ => Iff.rfl, fun _ => rfl, fun _ hb _ => hb,
      fun _ _ => rfl, fun _ _ => rfl, fun c => ?_, fun c => ?_, rfl, rfl⟩ rfl
    · simp only
      rw [Function.update_of_ne (fun hh => by cases hh)]
      exact .rfl' _
    · simp only
      rw [Function.update_of_ne (fun hh => by cases hh)]
  | join c =>
    refine .receiver c a rfl rfl rfl rfl (fun c' hc => ?_) ?_
    · have hne : ChanId.join c' ≠ .join c := fun hh => hc (by cases hh; rfl)
      simp only
      rw [Function.update_of_ne hne, Function.update_of_ne hne]
      exact ⟨rfl, rfl⟩
    · simp only
      rw [Function.update_self, Function.update_self]
      exact hrecv

theorem step_kind (he : Engaged s) {a : Action α} (h : s.step cfg a = some s') : StepKind cfg s a s' := by
  cases a with
  | thread t a =>
    obtain ⟨-, -, h⟩ := step_thread h
    exact kind_thread he h
  | sender n i a => exact kind_sender h
  | receiver ch a => exact kind_receiver h
  | ioReady t n e =>
    obtain ⟨r, -, rfl⟩ := step_ioReady h
    refine .outside (fun _ _ hh => by cases hh) ⟨fun _ => rfl, fun _ => Iff.rfl, fun _ => rfl, fun _ h _ => h,
      fun i _ => ?_, fun i c => ?_, fun _ => .rfl' _, fun _ => rfl, rfl, rfl⟩ ?_
    all_goals
      rw [threads_setThread]
      split
      · rename_i hi
        rw [← hi]
        try exact rfl
      · rfl

end kinds

end Instance
end Mioco

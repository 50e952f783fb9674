import Mioco.PoolRefines
import Mioco.AfterExit
/-!
# Before `Shutdown`, and before `Terminate`

Before the last coroutine ends (`late`) no thread is told to terminate.  As long as no coroutine calls `mioco::shutdown`
(`calm`) no thread shuts down either, and under a scheduler that drops no handle nobody is killed.
-/
namespace Mioco

open Lib (System Slab)

/-- `Shutdown` in a calm run, or a `Terminate` that is too early. -/
@[simp] def Message.premature (calm late : Bool) : Message → Bool
  | shutdown => calm
  | terminate => !late
  | channelMsg _ | migration _ | propagatePanic => false

/-- In a broadcast of them. -/
@[simp] def Job.premature {α : Type} (calm late : Bool) : Job α → Bool
  | shutdown _ => calm
  | terminate _ _ => !late
  | user | propagate | exit _ => false

/-- Control goes back to a loop that a calm thread is not in, or not yet. -/
@[simp] def Ret.premature (calm late : Bool) : Ret → Bool
  | resumed _ => false
  | stopping => calm || !late
  | killed _ | attached | shutdown _ _ => calm

/-- Where a calm thread is not, or not yet. -/
@[simp] def Pc.premature {α : Type} (calm late : Bool) : Pc α → Bool
  | exec _ ret j => ret.premature calm late || j.premature calm late
  | shutdown _ _ => calm
  | stopping | done => !late
  | _ => false

structure Thread.Peaceful {S : Sched} {α : Type} (calm late : Bool) (th : Thread S α) : Prop where
  isShuttingDown : calm = true → th.isShuttingDown = false
  inbox : ∀ m ∈ th.inbox, m.premature calm late = false
  terminated : late = false → th.terminated = false
  pc : th.pc.premature calm late = false

namespace Instance
variable {S : Sched} {w : Nat} {α : Type} {s s' : Instance S w α} {t c : Nat} {cfg : Config} {calm late : Bool}

/-- **No thread has been told to end too early**, and in a calm run no coroutine has been killed. -/
structure Peaceful (calm late : Bool) (s : Instance S w α) : Prop where
  threads : ∀ t, (s.threads t).Peaceful calm late
  killed : calm = true → ∀ c, (s.cos c).killed = false

namespace Peaceful

theorem mono (h : Peaceful calm late s) : Peaceful calm true s := by
  refine ⟨fun t => ?_, h.killed⟩
  obtain ⟨h1, h2, -, h4⟩ := h.threads t
  refine ⟨h1, fun m hm => ?_, fun hl => (by cases hl), ?_⟩
  · have hm' := h2 m hm
    cases m <;> first | rfl | exact hm'
  · cases hpc : (s.threads t).pc with
    | exec c ret j =>
      rw [hpc, Pc.premature, Bool.or_eq_false_iff] at h4
      rw [Pc.premature, Bool.or_eq_false_iff]
      refine ⟨?_, ?_⟩
      · cases ret with
        | stopping => exact Bool.or_eq_false_iff.2 ⟨(Bool.or_eq_false_iff.1 h4.1).1, rfl⟩
        | _ => exact h4.1
      · cases j <;> first | rfl | exact h4.2
    | shutdown i last =>
      rw [hpc] at h4
      exact h4
    | _ => rfl

theorem setThread (h : Peaceful calm late s) {th : Thread S α} (hth : th.Peaceful calm late) :
    Peaceful calm late (s.setThread t th) := by
  refine ⟨fun i => ?_, h.killed⟩
  rw [threads_setThread]
  split
  · exact hth
  · exact h.threads i

/-- Only what does not matter here is edited on the thread, and where it is. -/
theorem goes (h : Peaceful calm late s) {th : Thread S α} (hsd : th.isShuttingDown = (s.threads t).isShuttingDown)
    (hin : th.inbox = (s.threads t).inbox) (hte : th.terminated = (s.threads t).terminated)
    (hpc : th.pc.premature calm late = false) : Peaceful calm late (s.setThread t th) := by
  obtain ⟨h1, h2, h3, -⟩ := h.threads t
  exact h.setThread ⟨fun hc => hsd.trans (h1 hc), by rw [hin]; exact h2, fun hl => hte.trans (h3 hl), hpc⟩

theorem edit (h : Peaceful calm late s) {m : Instance S w α} {th : Thread S α} (hm : m.threads = s.threads)
    (hk : calm = true → ∀ i, (m.cos i).killed = false) (hsd : th.isShuttingDown = (s.threads t).isShuttingDown)
    (hin : th.inbox = (s.threads t).inbox) (hte : th.terminated = (s.threads t).terminated)
    (hpc : th.pc.premature calm late = false) : Peaceful calm late (m.setThread t th) := by
  have hm' : Peaceful calm late m := ⟨fun i => hm ▸ h.threads i, hk⟩
  exact hm'.goes (by rw [hm, hsd]) (by rw [hm, hin]) (by rw [hm, hte]) hpc

theorem setPc (h : Peaceful calm late s) {pc : Pc α} (hpc : pc.premature calm late = false) :
    Peaceful calm late (s.setPc t pc) :=
  h.goes rfl rfl rfl hpc

theorem panic (h : Peaceful calm late s) (why : Panic) : Peaceful calm late (s.panic t why) := h.goes rfl rfl rfl rfl

theorem setCo (h : Peaceful calm late s) {co : Coroutine} (hk : calm = true → co.killed = false) :
    Peaceful calm late (s.setCo c co) := by
  refine ⟨h.threads, fun hc i => ?_⟩
  rw [cos_setCo]
  split
  · exact hk hc
  · exact h.killed hc i

theorem of_eq (h : Peaceful calm late s) (hth : s'.threads = s.threads) (hco : s'.cos = s.cos) : Peaceful calm late s' :=
  ⟨fun i => hth ▸ h.threads i, fun hc i => hco ▸ h.killed hc i⟩

theorem setChan (h : Peaceful calm late s) (ch : ChanId) (chan : Chan w (ExitStatus α) Reg Nat) :
    Peaceful calm late (s.setChan ch chan) := h.of_eq rfl rfl

theorem send (h : Peaceful calm late s) (l : Nat) {m : Message} (hm : m.premature calm late = false) :
    Peaceful calm late (s.send l m) := by
  obtain ⟨h1, h2, h3, h4⟩ := h.threads l
  refine h.setThread ⟨h1, fun m' hm' => ?_, h3, h4⟩
  rcases List.mem_append.1 hm' with hold | hnew
  · exact h2 m' hold
  · rw [List.mem_singleton.1 hnew]
    exact hm

theorem exec (h : Peaceful calm late s) {ret : Ret} {j : Job α} (hpc : (s.threads t).pc = .exec c ret j) :
    ret.premature calm late = false ∧ j.premature calm late = false := by
  have hgrave := (h.threads t).pc
  rw [hpc] at hgrave
  simpa using hgrave

/-! ## Into a coroutine and out of it -/

theorem leave (h : Peaceful calm late s) {ret : Ret} (hret : ret.premature calm late = false) :
    Peaceful calm late (s.leave t c ret) := by
  cases ret with
  | stopping => exact h.setPc (Bool.or_eq_false_iff.1 hret).2
  | shutdown i last => exact h.setPc hret
  | _ => exact h.setPc rfl

theorem jumpIn (h : Peaceful calm late s) {ret : Ret} (hret : ret.premature calm late = false) :
    Peaceful calm late (s.jumpIn t c ret) := by
  unfold Instance.jumpIn
  split
  · exact h.leave hret
  · split
    · have hjump : Peaceful calm late { s with lastJump := Function.update s.lastJump c (some (s.jump c)) } :=
        h.of_eq rfl rfl
      apply hjump.setPc
      rw [Pc.premature, hret]
      rfl
    · exact h.panic _

/-- Only in a run that is not calm. -/
theorem kill (h : Peaceful calm late s) {ret : Ret} (hcalm : calm = false) (hret : ret.premature calm late = false) :
    Peaceful calm late (s.kill t c ret) := by
  refine Peaceful.jumpIn ?_ hret
  exact h.setCo (fun hc => by rw [hcalm] at hc; cases hc)

theorem callback (h : Peaceful calm late s) (k : Callback) (o : Option Handle) : Peaceful calm late (s.callback t k o) :=
  h.goes rfl rfl rfl rfl

theorem afterCall (h : Peaceful calm late s) (k : Callback) : Peaceful calm late (s.setPc t (afterCall k)) := by
  apply h.setPc
  cases k <;> rfl

theorem command (h : Peaceful calm late s) (k : Callback) {cmd : Cmd} (hcmd : calm = true → ∀ i, cmd ≠ .drop i) :
    Peaceful calm late (s.command t k cmd) := by
  cases cmd with
  | ret => exact h.afterCall k
  | resume i =>
    simp only [Instance.command]
    split
    · refine Peaceful.jumpIn ?_ rfl
      exact h.goes rfl rfl rfl (h.threads t).pc
    · exact h.afterCall k
  | migrate i threadId =>
    simp only [Instance.command]
    split
    · exact h.goes rfl rfl rfl rfl
    · exact h.afterCall k
  | drop i =>
    have hcalm : calm = false := by
      by_contra hc
      exact hcmd (by simpa using hc) i rfl
    simp only [Instance.command]
    split
    · refine Peaceful.kill ?_ hcalm hcalm
      exact h.goes rfl rfl rfl (h.threads t).pc
    · exact h.afterCall k

theorem detach (h : Peaceful calm late s) (k : Callback) (threadId : Nat) :
    Peaceful calm late (s.detach cfg t c k threadId) := by
  have hco : Peaceful calm late (s.setCo c { s.cos c with handler := none }) := h.setCo (fun hc => h.killed hc c)
  simp only [Instance.detach]
  split
  · split
    · exact hco.panic _
    · have hmid : ∀ slab, Peaceful calm late ((s.setCo c { s.cos c with handler := none }).setThread t
          { s.threads t with coroutines := slab, pc := .call k }) := fun slab => hco.goes rfl rfl rfl rfl
      split
      · exact (hmid _).panic _
      · split
        · exact (hmid _).send _ rfl
        · exact (hmid _).panic _
  · exact h.panic _

/-! ## Registering -/

theorem register (h : Peaceful calm late s) {due : Bool} {slot tick : Nat} (hst : s.register t due slot tick = some s') :
    Peaceful calm late s' := by
  simp only [Instance.register] at hst
  split at hst
  · split at hst
    · cases hst
      refine Peaceful.setPc ?_ rfl
      exact h.of_eq rfl rfl
    · split at hst
      · cases hst
        exact h.setPc rfl
      · split at hst <;> cases hst
        exact h.edit rfl h.killed rfl rfl rfl rfl
    · split at hst <;> cases hst
      · exact h.goes rfl rfl rfl rfl
      · exact h.panic _
  · cases hst

theorem afterRegister (h : Peaceful calm late s) (next : AfterRegister) : Peaceful calm late (s.afterRegister t c next) := by
  cases next with
  | resumed k => exact h.setPc rfl
  | attached =>
    rw [Instance.afterRegister, attached]
    split
    · rename_i hsd
      have hcalm : calm = false := by
        by_contra hc
        have hnot := (h.threads t).isShuttingDown (by simpa using hc)
        rw [hsd] at hnot
        cases hnot
      exact h.kill hcalm hcalm
    · exact h.callback _ _

theorem registered (h : Peaceful calm late s) (hit : Option (Event × Reg)) (next : AfterRegister) :
    Peaceful calm late (s.registered t c hit next) := by
  cases hit with
  | none => exact h.afterRegister next
  | some hit =>
    refine Peaceful.setPc ?_ rfl
    exact h.setCo (fun hc => h.killed hc c)

theorem clearTimeout (h : Peaceful calm late s) (timeout : Option (Nat × Nat)) :
    Peaceful calm late (s.clearTimeout t timeout) := by
  cases timeout with
  | none => exact h
  | some e =>
    simp only [Instance.clearTimeout]
    split
    · exact h.goes rfl rfl rfl (h.threads t).pc
    · exact h

theorem deregisterSrc (h : Peaceful calm late s) (src : Src) : Peaceful calm late (s.deregisterSrc t src) := by
  cases src with
  | recv ch => exact h.of_eq rfl rfl
  | timer n => exact h.clearTimeout _
  | io n =>
    simp only [Instance.deregisterSrc]
    split
    · exact h.goes rfl rfl rfl (h.threads t).pc
    · exact h.panic _

theorem deregister (h : Peaceful calm late s) (next : AfterDeregister) : Peaceful calm late (s.deregister cfg t c next) := by
  unfold Instance.deregister
  split
  · apply Peaceful.deregisterSrc
    exact h.setCo (fun hc => h.killed hc c)
  · cases next with
    | event => exact h.callback _ _
    | woken next => exact h.afterRegister next
    | migrate k l => exact h.detach k l

theorem afterResume (h : Peaceful calm late s) (k : Callback) : Peaceful calm late (s.afterResume t c k) := by
  have hset : ∀ (co : Coroutine) (th : Thread S α), co.killed = (s.cos c).killed →
      th.isShuttingDown = (s.threads t).isShuttingDown → th.inbox = (s.threads t).inbox →
      th.terminated = (s.threads t).terminated → th.pc = .call k → Peaceful calm late ((s.setCo c co).setThread t th) := by
    intro co th hk hsd hin hte hpc
    have hco : Peaceful calm late (s.setCo c co) := h.setCo (fun hc => hk.trans (h.killed hc c))
    exact hco.goes hsd hin hte (by rw [hpc]; rfl)
  simp only [Instance.afterResume]
  split <;> exact hset _ _ rfl rfl rfl rfl rfl

/-! ## The callbacks of mio -/

theorem deliverSpawned (h : Peaceful calm late s) : Peaceful calm late (s.deliverSpawned t) := by
  simp only [Instance.deliverSpawned]
  split
  · apply Peaceful.callback
    exact h.goes rfl rfl rfl (h.threads t).pc
  · exact h.setPc rfl

theorem deliverReady (h : Peaceful calm late s) (noSpawned : Bool) : Peaceful calm late (s.deliverReady t noSpawned) := by
  simp only [Instance.deliverReady]
  split
  · apply Peaceful.callback
    exact h.goes rfl rfl rfl (h.threads t).pc
  · split <;> exact h.setPc rfl

theorem ready (h : Peaceful calm late s) (r : Reg) (e : EventSet) : Peaceful calm late (s.ready t r e) := by
  unfold Instance.ready
  split
  · exact h.setPc rfl
  · split
    · split
      · exact h.panic _
      · refine Peaceful.setPc ?_ rfl
        exact h.setCo (fun hc => h.killed hc _)
    · exact h.setPc rfl

theorem shutdownNext (h : Peaceful calm late s) (hcalm : calm = false) {i last : Nat} :
    Peaceful calm late (s.shutdownNext t i last) := by
  unfold Instance.shutdownNext
  split
  · exact h.setPc rfl
  · split
    · exact h
    · exact h.kill hcalm hcalm

theorem notify (h : Peaceful calm late s) {id : Nat} (hst : s.notify t id = some s') : Peaceful calm late s' := by
  obtain ⟨h1, h2, h3, h4⟩ := h.threads t
  simp only [Instance.notify] at hst
  split at hst
  · cases hst
  · rename_i m rest hin
    have hhead := h2 m (by rw [hin]; exact List.mem_cons_self)
    have hrest : ∀ m ∈ rest, m.premature calm late = false := fun m hm => h2 m (by rw [hin]; exact List.mem_cons_of_mem _ hm)
    have hpop : Peaceful calm late (s.setThread t { s.threads t with inbox := rest }) := h.setThread ⟨h1, hrest, h3, h4⟩
    cases m with
    | channelMsg r =>
      cases hst
      exact hpop.ready r _
    | migration c =>
      simp only [attach] at hst
      split at hst <;> cases hst
      have hco : Peaceful calm late ((s.setThread t { s.threads t with inbox := rest }).setCo c
          { s.cos c with id := id, handler := some t }) := hpop.setCo (fun hc => hpop.killed hc c)
      exact hco.goes rfl rfl rfl rfl
    | propagatePanic =>
      cases hst
      exact hpop.panic _
    | shutdown =>
      cases hst
      apply hpop.setThread
      refine ⟨fun hc => ?_, hrest, h3, hhead⟩
      rw [hc] at hhead
      cases hhead
    | terminate =>
      cases hst
      apply hpop.setThread
      refine ⟨h1, hrest, fun hl => ?_, h4⟩
      rw [hl] at hhead
      cases hhead

/-! ## The code of a coroutine -/

theorem report_premature (res : ExitStatus α) : (cfg.report res).premature calm late = false := by
  cases res with
  | ok v => rfl
  | err =>
    simp only [Config.report]
    split <;> rfl

theorem finish (h : Peaceful calm late s) {ret : Ret} (hret : ret.premature calm late = false) {res : ExitStatus α}
    (hb : late = false → (s.finish cfg t c ret res).broadcasts = 0) : Peaceful calm late (s.finish cfg t c ret res) := by
  have hco : Peaceful calm late (s.setCo c { s.cos c with blockedOn := [], state := .finished }) :=
    h.setCo (fun hc => h.killed hc c)
  simp only [Instance.finish] at hb ⊢
  split at hb
  · exact hco.panic _
  · refine h.edit rfl hco.killed rfl rfl rfl ?_
    by_cases hlast : s.coroutinesNum = 1
    · have hlate : late = true := by
        by_contra hne
        have hb' : (if s.coroutinesNum = 1 then s.broadcasts + 1 else s.broadcasts) = 0 := hb (by simpa using hne)
        rw [if_pos hlast] at hb'
        cases hb'
      rw [if_pos hlast, Pc.premature, hret, hlate]
      rfl
    · rw [if_neg hlast, Pc.premature, hret, report_premature]
      rfl

theorem user (h : Peaceful calm late s) {u : UserAct α} (hu : calm = true → u ≠ .shutdown) (hst : s.user cfg t u = some s')
    (hb : late = false → s'.broadcasts = 0) : Peaceful calm late s' := by
  simp only [Instance.user] at hst
  split at hst
  · rename_i c ret hpc
    have hret := (h.exec hpc).1
    cases u with
    | select l =>
      cases hst
      have hsrcs : Peaceful calm late { s with srcs := selectAdd s.srcs (s.cos c).blockedOn.length l } := h.of_eq rfl rfl
      refine Peaceful.leave ?_ hret
      exact hsrcs.setCo (fun hc => h.killed hc c)
    | yieldNow =>
      cases hst
      refine Peaceful.leave ?_ hret
      exact h.setCo (fun hc => h.killed hc c)
    | spawn id =>
      simp only at hst
      split at hst <;> cases hst
      refine h.edit rfl (fun hc i => ?_) rfl rfl rfl (h.threads t).pc
      refine Peaceful.killed (Peaceful.setCo (Peaceful.setCo (h.of_eq rfl rfl) ?_) (fun _ => rfl)) hc i
      exact fun hc => h.killed hc c
    | shutdown =>
      cases hst
      have hcalm : calm = false := by
        by_contra hc
        exact hu (by simpa using hc) rfl
      have hcall : Peaceful calm late { s with shutdownCalled := true } := h.of_eq rfl rfl
      apply hcall.setPc
      rw [Pc.premature, hret, Job.premature, hcalm]
      rfl
    | finish res =>
      cases hst
      exact h.finish hret hb
  · cases hst

theorem notifyFrom (h : Peaceful calm late s) {pc : Pc α} (hpc : pc.premature calm late = false) (n : Notify Reg Nat) :
    Peaceful calm late (s.notifyFrom t pc n) := by
  unfold Instance.notifyFrom
  split
  · exact h.setPc hpc
  · split
    · exact (h.setPc hpc).send _ rfl
    · exact h.panic _
  · exact h.panic _

theorem stopNext (h : Peaceful calm late s) (hpc : (s.threads t).pc = .stopping)
    (hbare : calm = true → (s.threads t).held = [] ∧ (s.threads t).spawned = [] ∧ (s.threads t).ready = []) :
    Peaceful calm late (s.stopNext t) := by
  have hlate := (h.threads t).pc
  rw [hpc] at hlate
  have hkill : ∀ (th : Thread S α) (x : Nat), calm = false → th.isShuttingDown = (s.threads t).isShuttingDown →
      th.inbox = (s.threads t).inbox → th.terminated = (s.threads t).terminated → th.pc = (s.threads t).pc →
      Peaceful calm late ((s.setThread t th).kill t x .stopping) := by
    intro th x hcalm hsd hin hte hth
    refine Peaceful.kill ?_ hcalm (Bool.or_eq_false_iff.2 ⟨hcalm, hlate⟩)
    exact h.goes hsd hin hte (by rw [hth]; exact (h.threads t).pc)
  cases hcalm : calm with
  | true =>
    obtain ⟨hheld, hsp, hre⟩ := hbare hcalm
    rw [← hcalm]
    simp only [Instance.stopNext, hheld, hsp, hre]
    exact h.goes rfl rfl rfl hlate
  | false =>
    rw [← hcalm]
    simp only [Instance.stopNext]
    split
    · exact hkill _ _ hcalm rfl rfl rfl rfl
    · exact hkill _ _ hcalm rfl rfl rfl rfl
    · exact hkill _ _ hcalm rfl rfl rfl rfl
    · exact h.goes rfl rfl rfl hlate

theorem job (h : Peaceful calm late s) {ret : Ret} {j : Job α} (hpc : (s.threads t).pc = .exec c ret j)
    (hst : s.job cfg t c ret j = some s') : Peaceful calm late s' := by
  obtain ⟨hret, hj⟩ := h.exec hpc
  have hexit : (.exec c ret (.exit none) : Pc α).premature calm late = false := by
    rw [Pc.premature, hret]
    rfl
  cases j with
  | user => cases hst
  | shutdown i =>
    have hpc' : ∀ j' : Job α, j'.premature calm late = false → (.exec c ret j' : Pc α).premature calm late = false := by
      intro j' hj'
      rw [Pc.premature, hret, hj']
      rfl
    simp only [Instance.job] at hst
    split at hst <;> cases hst
    · refine Peaceful.send ?_ i hj
      exact h.setPc (hpc' (.shutdown (i + 1)) hj)
    · have hover : Peaceful calm late
          { s with inShutdown := Function.update s.inShutdown c (decide (cfg.threadNum ≤ i)) } := h.of_eq rfl rfl
      exact hover.setPc (hpc' .user rfl)
  | terminate i res =>
    have hpc' : ∀ j' : Job α, j'.premature calm late = false → (.exec c ret j' : Pc α).premature calm late = false := by
      intro j' hj'
      rw [Pc.premature, hret, hj']
      rfl
    simp only [Instance.job] at hst
    split at hst
    · split at hst <;> cases hst
      · have hsent := (h.setPc (t := t) (hpc' (.terminate (i + 1) res) hj)).send i (m := .terminate) hj
        exact hsent.goes rfl rfl rfl (hsent.threads i).pc
      · exact h.panic _
    · cases hst
      exact h.setPc (hpc' _ (report_premature res))
  | propagate =>
    cases hst
    exact (h.setPc hexit).send _ rfl
  | exit res =>
    simp only [Instance.job, Instance.exit] at hst
    split at hst
    · cases hst
    · cases hst
      exact h.leave hret
    · split at hst
      · cases hst
      · cases hst
        exact (h.setChan _ _).notifyFrom hexit _

/-! ## The instance -/

theorem threadStep (h : Peaceful calm late s) {a : ThreadAct α} (ha : calm = true → a ≠ .user .shutdown)
    (hdrop : calm = true → ∀ n held th sh i, (S.next n held th sh).1 ≠ .drop i)
    (hstop : calm = true → (s.threads t).pc = .stopping →
      (s.threads t).held = [] ∧ (s.threads t).spawned = [] ∧ (s.threads t).ready = [])
    (hst : s.threadStep cfg t a = some s')
    (hb : late = false → s'.broadcasts = 0) : Peaceful calm late s' := by
  cases a with
  | start =>
    simp only [Instance.threadStep] at hst
    split at hst <;> cases hst
    apply Peaceful.callback
    exact h.edit rfl h.killed rfl rfl rfl (h.threads t).pc
  | tick =>
    simp only [Instance.threadStep] at hst
    split at hst <;> cases hst
    exact h.callback _ _
  | notify id =>
    simp only [Instance.threadStep] at hst
    split at hst
    · exact h.notify hst
    · cases hst
  | ready =>
    simp only [Instance.threadStep] at hst
    split at hst <;> cases hst
    apply Peaceful.ready
    exact h.goes rfl rfl rfl (h.threads t).pc
  | timeout slot =>
    simp only [Instance.threadStep] at hst
    split at hst <;> cases hst
    apply Peaceful.ready
    exact h.goes rfl rfl rfl (h.threads t).pc
  | stop =>
    simp only [Instance.threadStep] at hst
    split at hst <;> cases hst
    rename_i hterm
    apply h.setPc
    cases late with
    | false =>
      have hnot := (h.threads t).terminated rfl
      rw [hterm.2] at hnot
      cases hnot
    | true => rfl
  | sched choice =>
    simp only [Instance.threadStep, Instance.sched] at hst
    split at hst <;> cases hst
    refine Peaceful.command ?_ _ (fun hc i => hdrop hc _ _ _ _ i)
    exact h.edit rfl h.killed rfl rfl rfl (h.threads t).pc
  | register due slot tick => exact h.register hst
  | user u => exact h.user (fun hc hu => ha hc (by rw [hu])) hst hb
  | next =>
    simp only [Instance.threadStep] at hst
    split at hst
    · cases hst
      exact h.deliverSpawned
    · cases hst
      exact h.deliverReady _
    · rename_i hpc
      exact h.job hpc hst
    · cases hst
      exact h.registered _ _
    · cases hst
      exact h.deregister _
    · cases hst
      exact h.afterResume _
    · rename_i i last hpc
      cases hst
      have hcalm := (h.threads t).pc
      rw [hpc] at hcalm
      exact h.shutdownNext hcalm
    · rename_i hpc
      cases hst
      exact h.stopNext hpc (fun hc => hstop hc hpc)
    · cases hst

/-- **Every step keeps the peace**: a calm run is one without a call of `mioco::shutdown`, under a scheduler that drops
no handle. -/
theorem step (h : Peaceful calm late s) {a : Action α} (ha : calm = true → ∀ t, a ≠ .thread t (.user .shutdown))
    (hdrop : calm = true → ∀ n held th sh i, (S.next n held th sh).1 ≠ .drop i)
    (hstop : calm = true → ∀ t, (s.threads t).pc = .stopping →
      (s.threads t).held = [] ∧ (s.threads t).spawned = [] ∧ (s.threads t).ready = []) (hst : s.step cfg a = some s')
    (hb : late = false → s'.broadcasts = 0) : Peaceful calm late s' := by
  cases a with
  | thread t a =>
    obtain ⟨-, -, hst⟩ := step_thread hst
    exact h.threadStep (fun hc ha' => ha hc t (by rw [ha'])) hdrop (fun hc => hstop hc t) hst hb
  | sender n i a =>
    obtain ⟨chan, out, -, rfl | ⟨l, r, -, rfl⟩⟩ := senderStep_some hst
    · exact h.setChan _ _
    · refine Peaceful.send ?_ _ rfl
      exact h.setChan _ _
  | receiver ch a =>
    obtain ⟨chan, taken, n, rfl, -⟩ := receiverStep_some hst
    exact h.of_eq rfl rfl
  | ioReady t n e =>
    obtain ⟨r, -, rfl⟩ := step_ioReady hst
    exact h.goes rfl rfl rfl (h.threads t).pc

theorem start (S : Sched) (w : Nat) (α : Type) (bound : Nat → Option Nat) :
    Peaceful calm late (Instance.start S w bound : Instance S w α) := by
  refine ⟨fun t => ?_, fun _ c => ?_⟩
  · simp only [Instance.start, Function.update_apply]
    split <;> exact ⟨fun _ => rfl, fun m hm => (by cases hm), fun _ => rfl, rfl⟩
  · simp only [Instance.start, Function.update_apply]
    split <;> rfl

end Peaceful
end Instance
end Mioco

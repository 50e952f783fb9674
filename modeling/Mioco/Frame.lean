import Mioco.Step
/-!
# What the steps leave alone

What an edit of one thread or of one coroutine does to the others, what the event loop does between two coroutines, and
`world`: all of an instance but its threads, its coroutines and its scheduler.
-/
namespace Mioco

/-- The thread is busy with no coroutine, and does not stop. -/
@[simp] def Pc.isFree {α : Type} : Pc α → Bool
  | .call _ | .deliverSpawned | .deliverReady _ | .poll | .deregister _ _ | .resumed _ _ | .shutdown _ _ => true
  | _ => false

namespace Instance
variable {S : Sched} {w : Nat} {α : Type}

section edits
variable (s : Instance S w α) (t c : Nat) (th : Thread S α) (co : Coroutine)

@[simp] theorem setThread_self : (s.setThread t th).threads t = th := Function.update_self _ _ _
theorem setThread_ne {t t' : Nat} (h : t' ≠ t) : (s.setThread t th).threads t' = s.threads t' :=
  Function.update_of_ne h _ _
theorem threads_setThread (i : Nat) : (s.setThread t th).threads i = if i = t then th else s.threads i :=
  Function.update_apply _ _ _ _
theorem threads_send (l : Nat) (m : Message) (i : Nat) : (s.send l m).threads i =
    { s.threads i with inbox := (s.threads i).inbox ++ if i = l then [m] else [] } := by
  rw [send, threads_setThread]
  split
  · subst i
    rfl
  · rw [List.append_nil]
theorem setThread_eq : s.setThread t (s.threads t) = s :=
  congrArg (fun threads => { s with threads := threads }) (Function.update_eq_self t s.threads)
@[simp] theorem setThread_cos : (s.setThread t th).cos = s.cos := rfl
@[simp] theorem setThread_coN : (s.setThread t th).coN = s.coN := rfl
@[simp] theorem setCo_self : (s.setCo c co).cos c = co := Function.update_self _ _ _
theorem setCo_ne {c c' : Nat} (h : c' ≠ c) : (s.setCo c co).cos c' = s.cos c' := Function.update_of_ne h _ _
theorem cos_setCo (i : Nat) : (s.setCo c co).cos i = if i = c then co else s.cos i :=
  Function.update_apply _ _ _ _
@[simp] theorem send_cos (l : Nat) (m : Message) : (s.send l m).cos = s.cos := rfl
@[simp] theorem setCo_threads : (s.setCo c co).threads = s.threads := rfl
@[simp] theorem setCo_coN : (s.setCo c co).coN = s.coN := rfl
@[simp] theorem setPc_cos (pc : Pc α) : (s.setPc t pc).cos = s.cos := rfl

end edits

/-- A thread takes a step that the code in its coroutine can take. -/
theorem step_thread {cfg : Config} {s s' : Instance S w α} {t : Nat} {a : ThreadAct α}
    (h : s.step cfg (.thread t a) = some s') :
    t < cfg.threadNum ∧ s.permits t a = true ∧ s.threadStep cfg t a = some s' := by
  simp only [step] at h
  split at h
  · rename_i hcan
    exact ⟨hcan.1, hcan.2, h⟩
  · cases h

/-- mio has something to report of a source that is registered. -/
theorem step_ioReady {cfg : Config} {s s' : Instance S w α} {t n : Nat} {e : EventSet}
    (h : s.step cfg (.ioReady t n e) = some s') : ∃ r, (s.threads t).ios n = some r ∧
      s' = s.setThread t { s.threads t with batch := (s.threads t).batch ++ [(r, e)] } := by
  simp only [step] at h
  split at h
  · rename_i r hr
    split at h <;> cases h
    exact ⟨r, hr, rfl⟩
  · cases h

theorem threadStep_panicked {cfg : Config} {s : Instance S w α} {t : Nat} {a : ThreadAct α}
    (hpc : (s.threads t).pc.isPanicked = true) : s.threadStep cfg t a = none := by
  cases hp : (s.threads t).pc <;> rw [hp] at hpc <;> cases hpc
  cases a <;> simp [threadStep, sched, register, user, hp, Pc.isStarting, Pc.isPoll]

/-! ## What the event loop does with its handles -/

/-- **The event loop goes on**: thread `t` moves handles between its queues, and goes to another place in the code, or to
a coroutine. -/
inductive Flow (t : Nat) : Instance S w α → Instance S w α → Prop
  | stays (s : Instance S w α) : (s.threads t).pc.isFree = true → Flow t s s
  | goes (s : Instance S w α) (held spawned ready : List Handle) (sched : S.Thread) (pc : Pc α) : pc.isFree = true →
      Flow t s (s.setThread t
        { s.threads t with held := held, spawned := spawned, ready := ready, sched := sched, pc := pc })
  | jumps (s : Instance S w α) (c : Nat) (k : Callback) : Flow t s (s.jumpIn t c (.resumed k))
  | kills (s : Instance S w α) (c : Nat) (ret : Ret) : (ret = .stopping → (s.threads t).pc = .stopping) →
      Flow t s (s.kill t c ret)
  | ends (s : Instance S w α) : (s.threads t).pc = .stopping →
      Flow t s (s.setThread t { s.threads t with pc := .done, isOpen := false })
  | moves {s s' : Instance S w α} (held spawned ready : List Handle) : Flow t (s.setThread t
      { s.threads t with held := held, spawned := spawned, ready := ready }) s' → Flow t s s'

section flow
variable (s : Instance S w α) (t c : Nat)

theorem setPc_flow {pc : Pc α} (h : pc.isFree = true) : Flow t s (s.setPc t pc) := .goes s _ _ _ _ pc h

theorem callback_flow (k : Callback) (h : Option Handle) : Flow t s (s.callback t k h) := .goes s _ _ _ _ _ rfl

theorem command_flow (k : Callback) (cmd : Cmd) : Flow t s (s.command t k cmd) := by
  have hret : Flow t s (s.setPc t (afterCall k)) := setPc_flow s t (by cases k <;> rfl)
  cases cmd with
  | ret => exact hret
  | resume i =>
    simp only [command]
    split
    · exact .moves _ _ _ (.jumps _ _ _)
    · exact hret
  | migrate i threadId =>
    simp only [command]
    split
    · exact .goes s _ _ _ _ _ rfl
    · exact hret
  | drop i =>
    simp only [command]
    split
    · exact .moves _ _ _ (.kills _ _ _ (fun h => by cases h))
    · exact hret

theorem afterRegister_flow (next : AfterRegister) : Flow t s (s.afterRegister t c next) := by
  cases next with
  | resumed k => exact setPc_flow s t rfl
  | attached =>
    rw [afterRegister, attached]
    split
    · exact .kills s c _ (fun h => by cases h)
    · exact callback_flow s t _ _

theorem deliverSpawned_flow : Flow t s (s.deliverSpawned t) := by
  simp only [deliverSpawned]
  split
  · exact .moves _ _ _ (callback_flow _ t _ _)
  · exact setPc_flow s t rfl

theorem deliverReady_flow (noSpawned : Bool) : Flow t s (s.deliverReady t noSpawned) := by
  simp only [deliverReady]
  split
  · exact .moves _ _ _ (callback_flow _ t _ _)
  · exact setPc_flow s t (by cases noSpawned <;> rfl)

theorem shutdownNext_flow {i last : Nat} (hpc : (s.threads t).pc = .shutdown i last) :
    Flow t s (s.shutdownNext t i last) := by
  unfold shutdownNext
  split
  · exact setPc_flow s t rfl
  · split
    · exact .stays s (by rw [hpc]; rfl)
    · exact .kills s _ _ (fun h => by cases h)

theorem stopNext_flow (hpc : (s.threads t).pc = .stopping) : Flow t s (s.stopNext t) := by
  have hkill : ∀ (held spawned ready : List Handle) (c : Nat), Flow t s
      ((s.setThread t { s.threads t with held := held, spawned := spawned, ready := ready }).kill t c .stopping) :=
    fun held spawned ready c => .moves held spawned ready (.kills _ c _ (fun _ => by rw [setThread_self]; exact hpc))
  simp only [stopNext]
  split
  · exact hkill _ _ _ _
  · exact hkill _ _ _ _
  · exact hkill _ _ _ _
  · exact .ends s hpc

end flow

/-! ## Outside the threads -/

/-- All but the threads, the coroutines and the scheduler. -/
def world (s : Instance S w α) :
    (ChanId → Chan w (ExitStatus α) Reg Nat) × (ChanId → Nat) × (Src → SrcCommon) × (Nat → Option (Nat × Nat)) ×
      Nat × Nat × Nat × Bool × (ChanId → Nat) :=
  (s.chans, s.taken, s.srcs, s.timeouts, s.coN, s.coroutinesNum, s.broadcasts, s.shutdownCalled, s.received)

section world
variable (s : Instance S w α) (t c : Nat)

@[simp] theorem setThread_world (th : Thread S α) : (s.setThread t th).world = s.world := rfl
@[simp] theorem setCo_world (co : Coroutine) : (s.setCo c co).world = s.world := rfl
@[simp] theorem setPc_world (pc : Pc α) : (s.setPc t pc).world = s.world := rfl
@[simp] theorem panic_world (why : Panic) : (s.panic t why).world = s.world := rfl
@[simp] theorem send_world (l : Nat) (m : Message) : (s.send l m).world = s.world := rfl

@[simp] theorem leave_world (ret : Ret) : (s.leave t c ret).world = s.world := by
  cases ret <;> rfl

@[simp] theorem jumpIn_world (ret : Ret) : (s.jumpIn t c ret).world = s.world := by
  unfold jumpIn
  split
  · exact leave_world s t c ret
  · split <;> rfl

@[simp] theorem kill_world (ret : Ret) : (s.kill t c ret).world = s.world := jumpIn_world _ _ _ _

theorem Flow.world {s s' : Instance S w α} {t : Nat} (h : Flow t s s') : s'.world = s.world := by
  induction h with
  | stays | goes | ends => rfl
  | jumps s c k => exact jumpIn_world s t c _
  | kills s c ret _ => exact kill_world s t c ret
  | moves _ _ _ _ ih => exact ih

@[simp] theorem detach_world (cfg : Config) (k : Callback) (threadId : Nat) :
    (s.detach cfg t c k threadId).world = s.world := by
  unfold detach
  simp only
  split
  · split
    · rfl
    · split
      · rfl
      · split <;> rfl
  · rfl

@[simp] theorem registered_world (hit : Option (Event × Reg)) (next : AfterRegister) :
    (s.registered t c hit next).world = s.world := by
  cases hit with
  | none => exact (afterRegister_flow s t c next).world
  | some hit => rfl

@[simp] theorem afterDeregister_world (cfg : Config) (next : AfterDeregister) :
    (s.afterDeregister cfg t c next).world = s.world := by
  cases next with
  | event => rfl
  | woken next => exact (afterRegister_flow s t c next).world
  | migrate k threadId => exact detach_world s t c cfg k threadId

@[simp] theorem clearTimeout_world (timeout : Option (Nat × Nat)) : (s.clearTimeout t timeout).world = s.world := by
  unfold clearTimeout
  simp only
  split
  · rfl
  · split <;> rfl

@[simp] theorem afterResume_world (k : Callback) : (s.afterResume t c k).world = s.world := by
  unfold afterResume
  simp only
  split <;> rfl

@[simp] theorem ready_world (r : Reg) (e : EventSet) : (s.ready t r e).world = s.world := by
  unfold ready
  split
  · rfl
  · split
    · split <;> rfl
    · rfl

theorem attach_world {s' : Instance S w α} {id : Nat} (h : s.attach t id c = some s') : s'.world = s.world := by
  unfold attach at h
  simp only at h
  split at h <;> cases h
  rfl

theorem notify_world {s' : Instance S w α} {id : Nat} (h : s.notify t id = some s') : s'.world = s.world := by
  unfold notify at h
  simp only at h
  split at h
  · cases h
  · rename_i m rest hin
    cases m with
    | migration c => exact attach_world (s.setThread t { s.threads t with inbox := rest }) t c h
    | _ => cases h; simp

end world

end Instance
end Mioco

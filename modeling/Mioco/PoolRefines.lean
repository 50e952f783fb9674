import Mathlib.Logic.Relation
import Mioco.Completion
import Mioco.PoolSound
/-!
# An instance keeps its handles as a pool does

`Instance.pool` forgets of an instance all that its handles do not depend on.  What is left takes steps of a pool, none
or a few for each step of the instance (`step_path`), as long as a coroutine that is being killed neither blocks nor
yields.
-/
namespace Mioco

open Lib (Slab System)
open Pooling

namespace Message

/-- The coroutine a `Migration` is about. -/
@[simp] def migrant : Message → Option Nat
  | migration c => some c
  | _ => none

end Message

/-- By a handle that is out of date. -/
@[simp] def Panic.isStray : Panic → Bool
  | slabRemove | strayHandle => true
  | _ => false

/-- Where a thread is, as a pool sees it. -/
@[simp] def Pooling.Stage.ofPc {α : Type} : Pc α → Stage
  | .starting => .starting
  | .poll => .poll
  | .call k => .call k
  | .deliverSpawned => .spawnedNext
  | .deliverReady b => .readyNext b
  | .exec c ret j => if j.live then .running c ret else .ending c ret
  | .register c _ _ next => .settling c next
  | .deregister c next => .freeing c next
  | .resumed c k => .resumed c k
  | .shutdown i last => .wave i last
  | .stopping => .stopping
  | .done => .done
  | .panicked why => .panicked why.isStray

def Thread.desk {S : Sched} {α : Type} (th : Thread S α) : Desk where
  coroutines := th.coroutines
  held := th.held.map Handle.co
  spawned := th.spawned.map Handle.co
  ready := th.ready.map Handle.co
  moving := th.inbox.filterMap Message.migrant
  isShuttingDown := th.isShuttingDown
  stage := .ofPc th.pc

def Coroutine.fiber (co : Coroutine) (handed : Nat) : Fiber :=
  ⟨co.state, co.killed, co.id, co.handler, co.children, handed⟩

namespace Pooling.Pool
variable {may : Ret → Nat → Prop} {p p' p'' : Pool} {t : Nat}

/-- Steps of one thread or several. -/
def Path (may : Ret → Nat → Prop) : Pool → Pool → Prop := Relation.ReflTransGen (fun p p' => ∃ t, p.Step may t p')

theorem Path.refl (may : Ret → Nat → Prop) (p : Pool) : Path may p p := Relation.ReflTransGen.refl

theorem Path.one (h : p.Step may t p') : Path may p p' := Relation.ReflTransGen.single ⟨t, h⟩

theorem Path.first (h : p.Step may t p') (h' : Path may p' p'') : Path may p p'' := Relation.ReflTransGen.head ⟨t, h⟩ h'

theorem Path.trans (h : Path may p p') (h' : Path may p' p'') : Path may p p'' := Relation.ReflTransGen.trans h h'

theorem Path.goes {st : Stage} (h : (p.desks t).Goes st) : Path may p (p.setStage t st) := Path.one (.moves _ (.goes st h))

theorem Path.sound (h : Path may p p') (hs : Sound p) : Sound p' := by
  induction h with
  | refl => exact hs
  | tail _ hst ih =>
    obtain ⟨t, hst⟩ := hst
    exact ih.step hst

theorem Path.settled (h : Path may p p') (hs : Sound p) (hb : p.Settled) : p'.Settled := by
  have hboth : Sound p' ∧ p'.Settled := by
    induction h with
    | refl => exact ⟨hs, hb⟩
    | tail _ hst ih =>
      obtain ⟨t, hst⟩ := hst
      exact ⟨ih.1.step hst, ih.1.settled ih.2 hst⟩
  exact hboth.2

theorem setDesk_setDesk (p : Pool) (t : Nat) (d d' : Desk) : (p.setDesk t d).setDesk t d' = p.setDesk t d' := by
  simp only [setDesk, Function.update_idem]

theorem setFiber_setDesk (p : Pool) (t c : Nat) (d : Desk) (f : Fiber) :
    (p.setDesk t d).setFiber c f = (p.setFiber c f).setDesk t d := rfl

theorem setStage_setStage (p : Pool) (t : Nat) (st st' : Stage) : (p.setStage t st).setStage t st' = p.setStage t st' := by
  rw [setStage, setStage, setDesk_setDesk, setDesk_self]
  rfl

end Pooling.Pool

namespace Instance
variable {S : Sched} {w : Nat} {α : Type} {s m s' : Instance S w α} {t c : Nat} {cfg : Config} {may : Ret → Nat → Prop}
  {g : Nat → Nat}

/-- The handles of an instance; `g` is how often each coroutine was given to `spawned`. -/
def pool (s : Instance S w α) (g : Nat → Nat) : Pool where
  desks t := (s.threads t).desk
  fibers c := (s.cos c).fiber (g c)
  coN := s.coN

/-- How often each coroutine was given to `spawned`, after an action. -/
def hands (s : Instance S w α) (g : Nat → Nat) : Action α → Nat → Nat
  | .thread t .next =>
    match (s.threads t).pc, (s.threads t).spawned with
    | .deliverSpawned, h :: _ => Function.update g h.co (g h.co + 1)
    | _, _ => g
  | _ => g

theorem hands_of_ne {a : Action α} (h : ∀ i, a ≠ .thread i .next) : s.hands g a = g := by
  unfold hands
  split
  · exact (h _ rfl).elim
  · rfl

/-- The function of the coroutine that thread `t` runs is being unwound by a kill. -/
def inKill (s : Instance S w α) (t : Nat) : Bool :=
  match (s.threads t).pc with
  | .exec _ ret .user => ret.kills
  | _ => false

/-- **A coroutine that is being killed does not switch out.** -/
def unwinds (s : Instance S w α) : Action α → Prop
  | .thread t (.user (.select _)) | .thread t (.user .yieldNow) => s.inKill t = false
  | _ => True

instance (s : Instance S w α) : (a : Action α) → Decidable (s.unwinds a)
  | .thread t (.user (.select _)) | .thread t (.user .yieldNow) => inferInstanceAs (Decidable (s.inKill t = false))
  | .thread _ (.user (.spawn _)) | .thread _ (.user .shutdown) | .thread _ (.user (.finish _)) | .thread _ .start
  | .thread _ .tick | .thread _ (.notify _) | .thread _ .ready | .thread _ (.timeout _) | .thread _ .stop
  | .thread _ (.sched _) | .thread _ (.register _ _ _) | .thread _ .next | .sender _ _ _ | .receiver _ _
  | .ioReady _ _ _ => isTrue trivial

/-! ## Edits -/

theorem pool_setThread (th : Thread S α) : (s.setThread t th).pool g = (s.pool g).setDesk t th.desk := by
  have hdesks : (fun i => ((s.setThread t th).threads i).desk) = Function.update (fun i => (s.threads i).desk) t th.desk := by
    funext i
    rw [threads_setThread, Function.update_apply]
    split <;> rfl
  simp only [pool, hdesks, Pool.setDesk, setThread_cos, setThread_coN]

theorem pool_setCo (co : Coroutine) : (s.setCo c co).pool g = (s.pool g).setFiber c (co.fiber (g c)) := by
  have hfibers : (fun i => ((s.setCo c co).cos i).fiber (g i)) =
      Function.update (fun i => (s.cos i).fiber (g i)) c (co.fiber (g c)) := by
    funext i
    rw [cos_setCo, Function.update_apply]
    split
    · rename_i hi
      rw [hi]
    · rfl
  simp only [pool, hfibers, Pool.setFiber, setCo_threads, setCo_coN]

theorem pool_setPc (pc : Pc α) : (s.setPc t pc).pool g = (s.pool g).setStage t (.ofPc pc) := pool_setThread _

theorem pool_panic (why : Panic) : (s.panic t why).pool g = (s.pool g).setStage t (.panicked why.isStray) :=
  pool_setThread _

theorem pool_eq (hth : ∀ i, (s'.threads i).desk = (s.threads i).desk)
    (hco : ∀ i, (s'.cos i).fiber (g i) = (s.cos i).fiber (g i)) (hn : s'.coN = s.coN) : s'.pool g = s.pool g := by
  simp only [pool, hn]
  congr
  · funext i
    exact hth i
  · funext i
    exact hco i

/-- A thread changes nothing that its handles depend on. -/
theorem pool_same {th : Thread S α} (h : th.desk = (s.threads t).desk) : (s.setThread t th).pool g = s.pool g := by
  refine pool_eq (fun i => ?_) (fun _ => rfl) rfl
  rw [threads_setThread]
  split
  · rename_i hi
    rw [h, hi]
  · rfl

theorem path_same {th : Thread S α} (h : th.desk = (s.threads t).desk) :
    (s.pool g).Path may ((s.setThread t th).pool g) := by
  rw [pool_same h]
  exact .refl may _

theorem pool_send (l : Nat) (msg : Message) (h : msg.migrant = none) : (s.send l msg).pool g = s.pool g := by
  refine pool_same ?_
  simp only [Thread.desk, List.filterMap_append, List.filterMap_cons, h, List.filterMap_nil, List.append_nil]

theorem pool_post (l : Nat) : (s.send l (.migration c)).pool g = (s.pool g).post l c := by
  rw [send, pool_setThread, Pool.post]
  congr
  simp only [Thread.desk, List.filterMap_append, List.filterMap_cons, List.filterMap_nil]
  rfl

theorem pool_callback (k : Callback) (h : Option Handle) : (s.callback t k h).pool g =
    (s.pool g).setDesk t { (s.threads t).desk with
      held := (s.threads t).held.map Handle.co ++ h.toList.map Handle.co, stage := .call k } := by
  rw [callback, pool_setThread]
  simp only [Thread.desk, List.map_append, Stage.ofPc]

theorem pool_callback_none (k : Callback) : (s.callback t k none).pool g = (s.pool g).setStage t (.call k) := by
  rw [pool_callback]
  simp only [Option.toList_none, List.map_nil, List.append_nil]
  rfl

theorem stage_pool {pc : Pc α} (hpc : (s.threads t).pc = pc) : ((s.pool g).desks t).stage = .ofPc pc :=
  congrArg Stage.ofPc hpc

theorem path_panic {pc : Pc α} (hpc : (s.threads t).pc = pc) (hr : (Stage.ofPc pc).runs = none) (why : Panic)
    (h : why.isStray = false) : (s.pool g).Path may ((s.panic t why).pool g) := by
  rw [pool_panic, h]
  exact .goes (.panic (by rw [stage_pool hpc, hr]))

/-! ## Into a coroutine -/

theorem pool_leave (ret : Ret) : (s.leave t c ret).pool g = (s.pool g).setStage t (.left c ret) := by
  cases ret <;> exact pool_setPc _

theorem path_jumpIn (ret : Ret) : ((s.pool g).setStage t (.entering c ret)).Path may ((s.jumpIn t c ret).pool g) := by
  have hstage : (((s.pool g).setStage t (.entering c ret)).desks t).stage = .entering c ret := by
    rw [Pool.setStage, Pool.setDesk_self]
  unfold jumpIn
  split
  · rename_i hf
    have hstep : Pool.Step may _ t _ := .passes c ret hstage hf
    rw [Pool.setStage_setStage, ← pool_leave] at hstep
    exact .one hstep
  · rename_i hl
    split
    · rename_i hh
      have hstep : Pool.Step may _ t _ := .enters c ret hstage hl hh
      rw [Pool.setStage_setStage] at hstep
      rw [pool_setPc]
      exact .one hstep
    · rename_i hh
      have hstep : Pool.Step may _ t _ := .strays c ret hstage hl hh
      rw [Pool.setStage_setStage] at hstep
      rw [pool_panic]
      exact .one hstep

theorem pool_kill : (s.setCo c { s.cos c with killed := true }).pool g = (s.pool g).kill c := pool_setCo _

/-- A coroutine is seized, and jumped into. -/
theorem path_kill (ret : Ret) (th : Thread S α) {d : Desk} (hz : (s.threads t).desk.Seizes c d)
    (hd : { th.desk with stage := .entering c ret } = d) :
    (s.pool g).Path may (((s.setThread t th).kill t c ret).pool g) := by
  have hstep : Pool.Step may (s.pool g) t _ := .seizes c d hz
  have hpool : ((s.setThread t th).setCo c { (s.setThread t th).cos c with killed := true }).pool g =
      ((s.pool g).kill c).setDesk t th.desk := by
    rw [pool_kill, pool_setThread]
    rfl
  have hjump : Pool.Path may _ _ := path_jumpIn (s := (s.setThread t th).setCo c { (s.setThread t th).cos c with
    killed := true }) (t := t) (c := c) (g := g) ret
  rw [hpool, Pool.setStage, Pool.setDesk_setDesk, Pool.setDesk_self, hd] at hjump
  exact .first hstep hjump

/-! ## The scheduler -/

theorem path_call {k : Callback} (hpc : (s.threads t).pc = .call k) :
    (s.pool g).Path may ((s.setPc t (afterCall k)).pool g) := by
  have hst : ((s.pool g).desks t).stage = .call k := stage_pool hpc
  rw [pool_setPc]
  cases k with
  | spawned => exact .goes (.spawnedCalled hst)
  | ready | tick => exact .goes (.called _ hst (by simp))

theorem desk_take (th : Thread S α) (i : Nat) (pc : Pc α) :
    ({ th with held := th.held.eraseIdx i, pc := pc } : Thread S α).desk =
    { th.desk with held := th.desk.held.eraseIdx i, stage := .ofPc pc } := by
  simp only [Thread.desk, List.eraseIdx_map]

theorem path_command {k : Callback} (hpc : (s.threads t).pc = .call k) (cmd : Cmd) :
    (s.pool g).Path may ((s.command t k cmd).pool g) := by
  have hst : ((s.pool g).desks t).stage = .call k := stage_pool hpc
  have hheld : ∀ {i : Nat} {h : Handle}, (s.threads t).held[i]? = some h → ((s.pool g).desks t).held[i]? = some h.co := by
    intro i h hi
    have hmap : ((s.threads t).held.map Handle.co)[i]? = some h.co := by
      rw [List.getElem?_map, hi]
      rfl
    exact hmap
  cases cmd with
  | ret => exact path_call hpc
  | resume i =>
    simp only [command]
    split
    · rename_i h hi
      have hstep : Pool.Step may (s.pool g) t _ := .moves _ (.takes h.co i k _ hst (hheld hi) (.inl rfl))
      have hjump : Pool.Path may _ _ := path_jumpIn (s := s.setThread t { s.threads t with
        held := (s.threads t).held.eraseIdx i }) (t := t) (c := h.co) (g := g) (.resumed k)
      rw [pool_setThread, Pool.setStage, Pool.setDesk_setDesk, Pool.setDesk_self] at hjump
      have hd := desk_take (s.threads t) i (s.threads t).pc
      rw [hd] at hjump
      exact .first hstep hjump
    · exact path_call hpc
  | migrate i threadId =>
    simp only [command]
    split
    · rename_i h hi
      have hstep : Pool.Step may (s.pool g) t _ :=
        .moves _ (.takes h.co i k _ hst (hheld hi) (.inr ⟨threadId, rfl⟩))
      rw [pool_setThread, desk_take]
      exact .one hstep
    · exact path_call hpc
  | drop i =>
    simp only [command]
    split
    · rename_i h hi
      refine path_kill (.killed k) _ (.drops i k hst (hheld hi)) ?_
      rw [desk_take _ i (s.threads t).pc]
    · exact path_call hpc

theorem path_sched {choice : Nat} (h : s.sched t choice = some s') : (s.pool g).Path may (s'.pool g) := by
  simp only [sched] at h
  split at h
  · rename_i k hpc
    cases h
    have hpool : ∀ sh sc, ({ s with shared := sh }.setThread t { s.threads t with sched := sc }).pool g = s.pool g :=
      fun sh sc => pool_same (s := { s with shared := sh }) rfl
    rw [← hpool (S.next choice (s.threads t).held (s.threads t).sched s.shared).2.2
      (S.next choice (s.threads t).held (s.threads t).sched s.shared).2.1]
    exact path_command (by rw [setThread_self]; exact hpc) _
  · cases h

theorem pool_detach : (s.setCo c { s.cos c with handler := none }).pool g = (s.pool g).detach c := pool_setCo _

theorem path_detach {k : Callback} {l : Nat} (hpc : (s.threads t).pc = .deregister c (.migrate k l)) :
    (s.pool g).Path may ((s.detach cfg t c k l).pool g) := by
  have hst : ((s.pool g).desks t).stage = .freeing c (.migrate k l) := stage_pool hpc
  simp only [detach]
  split
  · rename_i hh
    have hh' : ((s.pool g).fibers c).handler = some t := hh
    split
    · rename_i hrem
      rw [pool_panic, pool_detach]
      exact .one (.misplaced c l k hst hh' hrem)
    · rename_i slab hrem
      have hpool : ∀ pc, (((s.setCo c { s.cos c with handler := none }).setThread t
          { s.threads t with coroutines := slab, pc := pc }).pool g) =
          ((s.pool g).detach c).setDesk t { (s.pool g).desks t with coroutines := slab, stage := .ofPc pc } := by
        intro pc
        rw [pool_setThread, pool_detach]
        rfl
      have hlose : ∀ why : Panic, why.isStray = false → Pool.Path may (s.pool g)
          ((((s.setCo c { s.cos c with handler := none }).setThread t
            { s.threads t with coroutines := slab, pc := .call k }).panic t why).pool g) := by
        intro why hwhy
        rw [pool_panic, hpool, Pool.setStage, Pool.setDesk_setDesk, Pool.setDesk_self, hwhy]
        exact .one (.loses c l k slab hst hh' hrem)
      split
      · exact hlose _ rfl
      · split
        · rw [pool_post, hpool]
          exact .one (.sends c l l k slab hst hh' hrem)
        · exact hlose _ rfl
  · rename_i hh
    rw [pool_panic]
    exact .one (.elsewhere c l k hst hh)

/-! ## Registering -/

theorem path_attached (hst : ((s.pool g).desks t).stage.attaching = some c) :
    (s.pool g).Path may ((s.attached t c).pool g) := by
  unfold attached
  split
  · rename_i hs
    have hpath : Pool.Path may _ _ := path_kill (s := s) (t := t) (c := c) (g := g) .attached (s.threads t)
      (.arrives hst hs) rfl
    rwa [setThread_eq] at hpath
  · rename_i hs
    rw [pool_callback]
    have hs' : (s.threads t).isShuttingDown = false := by simpa using hs
    exact .one (.moves _ (.gives c (.inr ⟨hst, hs'⟩)))

/-- What a thread does to timers, sources and channels has no part in it. -/
theorem pool_setChan (ch : ChanId) (chan : Chan w (ExitStatus α) Reg Nat) : (s.setChan ch chan).pool g = s.pool g := rfl

theorem path_afterRegister {next : AfterRegister} (hst : ((s.pool g).desks t).stage = .settling c next ∨
    ((s.pool g).desks t).stage = .freeing c (.woken next)) : (s.pool g).Path may ((s.afterRegister t c next).pool g) := by
  cases next with
  | resumed k =>
    rw [afterRegister, pool_setPc]
    rcases hst with hst | hst
    · exact .goes (.settled c k hst)
    · exact .goes (.freed c k hst)
  | attached => exact path_attached (by rcases hst with hst | hst <;> rw [hst] <;> rfl)

theorem path_registered {hit : Option (Event × Reg)} {next : AfterRegister}
    (hpc : (s.threads t).pc = .register c [] hit next) (hl : hit ≠ none → (s.cos c).state ≠ .finished) :
    (s.pool g).Path may ((s.registered t c hit next).pool g) := by
  have hst : ((s.pool g).desks t).stage = .settling c next := stage_pool hpc
  cases hit with
  | none => exact path_afterRegister (.inl hst)
  | some hit =>
    obtain ⟨e, r⟩ := hit
    simp only [registered]
    rw [pool_setPc, pool_setCo]
    exact .one (.wakes c next hst (hl (Option.some_ne_none _)))

theorem path_register {due : Bool} {slot tick : Nat} (h : s.register t due slot tick = some s') :
    (s.pool g).Path may (s'.pool g) := by
  simp only [register] at h
  split at h
  · rename_i c src todo hit next hpc
    have hsame : ∀ (m : Instance S w α) (th : Thread S α), m.pool g = s.pool g → m.threads t = s.threads t →
        th.desk = (s.threads t).desk → (s.pool g).Path may ((m.setThread t th).pool g) := by
      intro m th hm hmt hth
      rw [pool_same (by rw [hth, hmt]), hm]
      exact .refl may _
    have hdesk : ∀ hit' ios wheel, ({ s.threads t with
        ios := ios, wheel := wheel, pc := .register c todo hit' next } : Thread S α).desk = (s.threads t).desk := by
      intro hit' ios wheel
      simp only [Thread.desk, hpc, Stage.ofPc]
    split at h
    · cases h
      exact hsame _ _ (pool_setChan _ _) rfl (hdesk _ _ _)
    · split at h
      · cases h
        exact hsame _ _ rfl rfl (hdesk _ _ _)
      · split at h <;> cases h
        exact hsame { s with timeouts := _ } _ rfl rfl (hdesk _ _ _)
    · split at h <;> cases h
      · exact hsame _ _ rfl rfl (hdesk _ _ _)
      · exact path_panic hpc rfl _ rfl
  · cases h

theorem path_deregister {next : AfterDeregister} (hpc : (s.threads t).pc = .deregister c next) :
    (s.pool g).Path may ((s.deregister cfg t c next).pool g) := by
  have hst : ((s.pool g).desks t).stage = .freeing c next := stage_pool hpc
  unfold deregister
  split
  · rename_i src rest hb
    generalize hm : s.setCo c { s.cos c with blockedOn := rest } = m
    have hpool : m.pool g = s.pool g := by
      rw [← hm]
      refine pool_eq (fun _ => rfl) (fun i => ?_) rfl
      rw [cos_setCo]
      split
      · rename_i hi
        rw [hi]
        rfl
      · rfl
    rw [← hpool]
    cases src with
    | recv ch => exact .refl may _
    | timer n =>
      simp only [deregisterSrc, clearTimeout]
      split
      · exact .refl may _
      · split
        · exact path_same rfl
        · exact .refl may _
    | io n =>
      simp only [deregisterSrc]
      split
      · exact path_same rfl
      · have hpc' : (m.threads t).pc = .deregister c next := by
          rw [← hm]
          exact hpc
        exact path_panic hpc' rfl .mioFailed rfl
  · cases next with
    | event =>
      rw [afterDeregister, pool_callback]
      exact .one (.moves _ (.gives c (.inl hst)))
    | woken next => exact path_afterRegister (.inr hst)
    | migrate k l => exact path_detach hpc

/-- **`after_resume`.** -/
theorem path_afterResume {k : Callback} (hpc : (s.threads t).pc = .resumed c k) :
    (s.pool g).Path may ((s.afterResume t c k).pool g) := by
  have hst : ((s.pool g).desks t).stage = .resumed c k := stage_pool hpc
  have hpool : ∀ (co : Coroutine) (th : Thread S α) (f : Fiber) (d : Desk), co.fiber (g c) = f → th.desk = d →
      ((s.setCo c co).setThread t th).pool g = ((s.pool g).setFiber c f).setDesk t d := by
    intro co th f d hf hd
    rw [pool_setThread, pool_setCo, hf, hd]
  have hspawned : ((s.threads t).spawned ++ (s.cos c).children.map Handle.new).map Handle.co =
      ((s.pool g).desks t).spawned ++ ((s.pool g).fibers c).children := by
    have hnew : ((s.cos c).children.map Handle.new).map Handle.co = (s.cos c).children := by
      rw [List.map_map]
      exact List.map_id _
    rw [List.map_append, hnew]
    rfl
  simp only [afterResume]
  split
  · rename_i hy
    rw [hpool _ _ _ { (s.threads t).desk with
      spawned := ((s.pool g).desks t).spawned ++ ((s.pool g).fibers c).children
      ready := ((s.pool g).desks t).ready ++ [c], stage := .call k } rfl
      (by rw [← hspawned]; simp only [Thread.desk, List.map_append, pool]; rfl)]
    exact .one (.requeues c k hst (.inl hy))
  · rename_i hy
    rw [hpool _ _ _ { (s.threads t).desk with
      spawned := ((s.pool g).desks t).spawned ++ ((s.pool g).fibers c).children
      ready := ((s.pool g).desks t).ready ++ [c], stage := .call k } rfl
      (by rw [← hspawned]; simp only [Thread.desk, List.map_append, pool]; rfl)]
    have hstep : Pool.Step may (s.pool g) t _ := .requeues c k hst (.inr hy)
    rw [← hy] at hstep
    exact .one hstep
  all_goals
    rename_i hb
    rw [hpool _ _ _ { (s.threads t).desk with
      spawned := ((s.pool g).desks t).spawned ++ ((s.pool g).fibers c).children, stage := .call k } rfl
      (by rw [← hspawned]; rfl)]
    first | exact .one (.parks c k hst (.inl hb)) | exact .one (.parks c k hst (.inr hb))

/-! ## The callbacks of mio -/

/-- **`deliver_to_scheduler`, the `spawned` queue**: a coroutine is handed over. -/
theorem path_deliverSpawned (hpc : (s.threads t).pc = .deliverSpawned) :
    (s.pool g).Path may ((s.deliverSpawned t).pool (s.hands g (.thread t .next))) := by
  have hst : ((s.pool g).desks t).stage = .spawnedNext := stage_pool hpc
  cases hsp : (s.threads t).spawned with
  | nil =>
    have hg : s.hands g (.thread t .next) = g := by simp only [hands, hpc, hsp]
    rw [hg]
    simp only [deliverSpawned, hsp]
    rw [pool_setPc]
    exact .goes (.noSpawned hst (congrArg (List.map Handle.co) hsp))
  | cons h rest =>
    have hg : s.hands g (.thread t .next) = Function.update g h.co (g h.co + 1) := by simp only [hands, hpc, hsp]
    have hhand : ∀ m : Instance S w α, m.pool (Function.update g h.co (g h.co + 1)) =
        (m.pool g).setFiber h.co { (m.pool g).fibers h.co with handed := ((m.pool g).fibers h.co).handed + 1 } := by
      intro m
      simp only [pool, Pool.setFiber]
      congr
      funext i
      rw [Function.update_apply, Function.update_apply]
      split
      · rename_i hi
        rw [hi]
        rfl
      · rfl
    rw [hg]
    simp only [deliverSpawned, hsp]
    rw [hhand, pool_callback, setThread_self, pool_setThread, Pool.setDesk_setDesk, Pool.setFiber_setDesk]
    exact .one (.delivers h.co (rest.map Handle.co) hst (congrArg (List.map Handle.co) hsp))

theorem path_deliverReady {b : Bool} (hpc : (s.threads t).pc = .deliverReady b) :
    (s.pool g).Path may ((s.deliverReady t b).pool g) := by
  have hst : ((s.pool g).desks t).stage = .readyNext b := stage_pool hpc
  simp only [deliverReady]
  split
  · rename_i h rest hready
    have hr : ((s.pool g).desks t).ready = h.co :: rest.map Handle.co := congrArg (List.map Handle.co) hready
    rw [pool_callback, setThread_self, pool_setThread, Pool.setDesk_setDesk]
    exact .one (.moves _ (.readies h.co b (rest.map Handle.co) hst hr))
  · rename_i hready
    have hr : ((s.pool g).desks t).ready = [] := congrArg (List.map Handle.co) hready
    rw [pool_setPc]
    cases b with
    | false => exact .goes (.noReady hst hr)
    | true => exact .goes (.delivered hst hr)

theorem path_ready (hpc : (s.threads t).pc = .poll) (r : Reg) (e : EventSet) :
    (s.pool g).Path may ((s.ready t r e).pool g) := by
  have hst : ((s.pool g).desks t).stage = .poll := stage_pool hpc
  unfold ready
  split
  · rw [← hpc, setPc, setThread_eq]
    exact .refl may _
  · rename_i c hg
    split
    · rename_i hb
      split
      · exact path_panic hpc rfl _ rfl
      · rw [pool_setPc, pool_setCo]
        exact .one (.event c _ hst hg hb)
    · rw [pool_setPc]
      exact .goes (.spurious _ c hst hg)

theorem path_notify {id : Nat} (hpc : (s.threads t).pc = .poll) (h : s.notify t id = some s') :
    (s.pool g).Path may (s'.pool g) := by
  have hst : ((s.pool g).desks t).stage = .poll := stage_pool hpc
  simp only [notify] at h
  split at h
  · cases h
  · rename_i msg rest hin
    have hinbox : ∀ {th : Thread S α}, msg.migrant = none → th.desk = { s.threads t with inbox := rest }.desk →
        (s.setThread t th).pool g = s.pool g := by
      intro th hmsg hth
      refine pool_same ?_
      rw [hth]
      simp only [Thread.desk, hin, List.filterMap_cons, hmsg]
    cases msg with
    | channelMsg r =>
      cases h
      rw [← hinbox rfl rfl]
      exact path_ready (by rw [setThread_self]; exact hpc) r _
    | migration c =>
      simp only [attach] at h
      split at h
      · rename_i slab hins
        cases h
        rw [setThread_self] at hins
        have hmoving : ((s.pool g).desks t).moving = c :: rest.filterMap Message.migrant :=
          congrArg (List.filterMap Message.migrant) hin
        rw [pool_setThread, pool_setCo, pool_setThread, setThread_self, Pool.setFiber_setDesk, Pool.setDesk_setDesk]
        exact .one (.attach c id slab _ hst hmoving hins)
      · cases h
    | propagatePanic =>
      cases h
      rw [← hinbox rfl rfl]
      have hpc' : ((s.setThread t { s.threads t with inbox := rest }).threads t).pc = .poll := by
        rw [setThread_self, hpc]
      exact path_panic hpc' rfl .propagated rfl
    | shutdown =>
      cases h
      rw [pool_setThread, pool_setThread, Pool.setDesk_setDesk]
      have hstep : Pool.Step may (s.pool g) t _ := .moves _ (.shutdown hst)
      have hmoving := congrArg (List.filterMap Message.migrant) hin
      have hmoving' : ((s.pool g).desks t).moving = rest.filterMap Message.migrant := hmoving
      rw [hmoving'] at hstep
      exact .one hstep
    | terminate =>
      cases h
      rw [pool_same]
      · rw [hinbox rfl rfl]
        exact .refl may _
      · simp only [Thread.desk, setThread_self]

theorem path_shutdownNext {i last : Nat} (hpc : (s.threads t).pc = .shutdown i last) :
    (s.pool g).Path may ((s.shutdownNext t i last).pool g) := by
  have hst : ((s.pool g).desks t).stage = .wave i last := stage_pool hpc
  unfold shutdownNext
  split
  · rename_i hnone
    rw [pool_setPc]
    exact .goes (.waved i last hst hnone)
  · rename_i id hnext
    split
    · exact .refl may _
    · rename_i c hg
      have hpath : Pool.Path may _ _ := path_kill (s := s) (t := t) (c := c) (g := g)
        (.shutdown (id + 1) last) (s.threads t) (.wave i last id hst hnext hg) rfl
      rwa [setThread_eq] at hpath

theorem path_stopNext (hpc : (s.threads t).pc = .stopping) : (s.pool g).Path may ((s.stopNext t).pool g) := by
  have hst : ((s.pool g).desks t).stage = .stopping := stage_pool hpc
  simp only [stopNext]
  split
  · rename_i h rest hheld
    exact path_kill .stopping _ (.stops (rest.map Handle.co) _ _ hst
      (.inl ⟨congrArg (List.map Handle.co) hheld, rfl, rfl⟩)) rfl
  · rename_i h rest hheld hsp
    exact path_kill .stopping _ (.stops _ (rest.map Handle.co) _ hst
      (.inr (.inl ⟨rfl, congrArg (List.map Handle.co) hsp, rfl⟩))) rfl
  · rename_i h rest hheld hsp hready
    exact path_kill .stopping _ (.stops _ _ (rest.map Handle.co) hst
      (.inr (.inr ⟨rfl, rfl, congrArg (List.map Handle.co) hready⟩))) rfl
  · rename_i hheld hsp hready
    rw [pool_setThread]
    exact .goes (.stopped hst (congrArg (List.map Handle.co) hheld) (congrArg (List.map Handle.co) hsp)
      (congrArg (List.map Handle.co) hready))

/-! ## The code of a coroutine -/

theorem stage_exec {ret : Ret} {j : Job α} (hpc : (s.threads t).pc = .exec c ret j) :
    ((s.pool g).desks t).stage = if j.live then .running c ret else .ending c ret := stage_pool hpc

/-- What may be done by the function of a coroutine, by whether it is being killed. -/
def Allows (may : Ret → Nat → Prop) (s : Instance S w α) (a : Action α) : Prop :=
  ∀ t c ret id, a = .thread t (.user (.spawn id)) → (s.threads t).pc = .exec c ret .user → may ret id

theorem path_finish {ret : Ret} (hpc : (s.threads t).pc = .exec c ret .user) (res : ExitStatus α) :
    (s.pool g).Path may ((s.finish cfg t c ret res).pool g) := by
  have hst : ((s.pool g).desks t).stage = .running c ret := stage_exec hpc
  have hco : (s.setCo c { s.cos c with blockedOn := [], state := .finished }).pool g = (s.pool g).setState c .finished :=
    pool_setCo _
  simp only [finish]
  split
  · rename_i hrem
    rw [pool_panic, hco]
    exact .one (.misses c ret hst hrem)
  · rename_i slab hrem
    have hending : ∀ j : Job α, j.live = false → Stage.ofPc (.exec c ret j) = .ending c ret := by
      intro j hj
      simp only [Stage.ofPc, hj]
      rfl
    have hlive : (if s.coroutinesNum = 1 then Job.terminate 0 res else cfg.report res).live = false := by
      split
      · rfl
      · cases res <;> (simp only [Config.report]; try split) <;> rfl
    rw [pool_setThread]
    simp only [Thread.desk, hending _ hlive]
    have hstep : Pool.Step may (s.pool g) t _ := .finish c ret slab hst hrem
    rw [← hco] at hstep
    exact .one hstep

theorem path_user {ret : Ret} {u : UserAct α} (hpc : (s.threads t).pc = .exec c ret .user)
    (hu : s.unwinds (.thread t (.user u))) (hmay : Allows may s (.thread t (.user u)))
    (h : s.user cfg t u = some s') : (s.pool g).Path may (s'.pool g) := by
  have hst : ((s.pool g).desks t).stage = .running c ret := stage_exec hpc
  have hret : s.inKill t = ret.kills := by simp only [inKill, hpc]
  unfold user at h
  simp only at h
  split at h
  · rename_i c' ret' heq
    rw [hpc] at heq
    cases heq
    split at h
    · cases h
      rw [pool_leave, pool_setCo]
      exact .one (.switches c ret .blocked hst (hret.symm.trans hu) (.inl rfl))
    · cases h
      rw [pool_leave, pool_setCo]
      exact .one (.switches c ret .yielding hst (hret.symm.trans hu) (.inr rfl))
    · rename_i id
      split at h
      · rename_i slab hins
        cases h
        rw [pool_setThread, pool_setCo, pool_setCo]
        exact .one (.spawn c id ret slab hst (hmay t c ret id rfl hpc) hins)
      · cases h
    · cases h
      exact path_same (s := { s with shutdownCalled := true }) (by simp only [Thread.desk, hpc, Stage.ofPc, Job.live])
    · cases h
      exact path_finish hpc _
  · cases h

/-- A message joins a queue while the thread goes on in the context of the same coroutine. -/
theorem path_tell {pc : Pc α} (hpc : Stage.ofPc pc = Stage.ofPc (s.threads t).pc) (l : Nat) (msg : Message)
    (hmsg : msg.migrant = none) : (s.pool g).Path may (((s.setPc t pc).send l msg).pool g) := by
  rw [pool_send l msg hmsg]
  exact path_same (by simp only [Thread.desk, hpc])

theorem path_exit {ret : Ret} {res : Option (ExitStatus α)} (hpc : (s.threads t).pc = .exec c ret (.exit res))
    (h : s.exit t c ret res = some s') : (s.pool g).Path may (s'.pool g) := by
  have hst : ((s.pool g).desks t).stage = .ending c ret := stage_exec hpc
  unfold exit at h
  split at h
  · cases h
  · cases h
    rw [pool_leave]
    exact .goes (.left c ret hst)
  · split at h
    · cases h
    · rename_i chan n _
      cases h
      have hsame : Stage.ofPc (.exec c ret (.exit none) : Pc α) = Stage.ofPc ((s.setChan (.join c) chan).threads t).pc := by
        show _ = Stage.ofPc (s.threads t).pc
        rw [hpc]
        rfl
      rw [← pool_setChan (.join c) chan]
      unfold notifyFrom
      cases n with
      | nothing => exact path_same (by simp only [Thread.desk, hsame])
      | channelMsg l r =>
        simp only
        split
        · exact path_tell hsame l _ rfl
        · exact path_panic hpc rfl _ rfl
      | unwrapNone => exact path_panic hpc rfl _ rfl

theorem path_job {ret : Ret} {j : Job α} (hpc : (s.threads t).pc = .exec c ret j) (h : s.job cfg t c ret j = some s') :
    (s.pool g).Path may (s'.pool g) := by
  have hsame : ∀ j' : Job α, j'.live = j.live → Stage.ofPc (.exec c ret j' : Pc α) = Stage.ofPc (s.threads t).pc := by
    intro j' hj
    rw [hpc]
    simp only [Stage.ofPc, hj]
  have hset : ∀ j' : Job α, j'.live = j.live → (s.pool g).Path may ((s.setPc t (.exec c ret j')).pool g) :=
    fun j' hj => path_same (by simp only [Thread.desk, hsame j' hj])
  cases j with
  | user => cases h
  | shutdown i =>
    simp only [job] at h
    split at h <;> cases h
    · exact path_tell (hsame (.shutdown (i + 1)) rfl) i .shutdown rfl
    · exact hset _ rfl
  | terminate i res =>
    simp only [job] at h
    split at h
    · split at h <;> cases h
      · exact (path_tell (hsame (.terminate (i + 1) res) rfl) i .terminate rfl).trans (path_same rfl)
      · exact path_panic hpc rfl _ rfl
    · cases h
      refine hset _ ?_
      cases res <;> (simp only [Config.report]; try split) <;> rfl
  | propagate =>
    cases h
    exact path_tell (hsame (.exit none) rfl) t .propagatePanic rfl
  | exit res => exact path_exit hpc h

/-! ## The instance -/

theorem path_next (hc : Custody s) (h : s.threadStep cfg t .next = some s') :
    (s.pool g).Path may (s'.pool (s.hands g (.thread t .next))) := by
  have hsame : (s.threads t).pc ≠ .deliverSpawned → s.hands g (.thread t .next) = g := by
    intro hpc
    unfold hands
    simp only
    split
    · rename_i heq _
      exact (hpc heq).elim
    · rfl
  simp only [threadStep] at h
  split at h
  · rename_i hpc
    cases h
    exact path_deliverSpawned hpc
  · rename_i b hpc
    cases h
    rw [hsame (by rw [hpc]; simp)]
    exact path_deliverReady hpc
  · rename_i c ret j hpc
    rw [hsame (by rw [hpc]; simp)]
    exact path_job hpc h
  · rename_i c hit next hpc
    cases h
    rw [hsame (by rw [hpc]; simp)]
    refine path_registered hpc (fun hhit => ?_)
    have heng : (s.threads t).pc.engaged = some (c, none) := by
      rw [hpc]
      cases hit with
      | none => exact (hhit rfl).elim
      | some x => rfl
    exact (hc.engaged t c none heng).live rfl
  · rename_i c next hpc
    cases h
    rw [hsame (by rw [hpc]; simp)]
    exact path_deregister hpc
  · rename_i c k hpc
    cases h
    rw [hsame (by rw [hpc]; simp)]
    exact path_afterResume hpc
  · rename_i i last hpc
    cases h
    rw [hsame (by rw [hpc]; simp)]
    exact path_shutdownNext hpc
  · rename_i hpc
    cases h
    rw [hsame (by rw [hpc]; simp)]
    exact path_stopNext hpc
  · cases h

theorem path_thread (hc : Custody s) {a : ThreadAct α} (hu : s.unwinds (.thread t a)) (hmay : Allows may s (.thread t a))
    (h : s.threadStep cfg t a = some s') : (s.pool g).Path may (s'.pool (s.hands g (.thread t a))) := by
  cases a with
  | start =>
    simp only [threadStep] at h
    split at h
    · rename_i hs
      cases h
      have hst : ((s.pool g).desks t).stage = .starting := stage_pool (Pc.eq_starting hs.1)
      have hsame : ({ s with shared := (S.spawnThread s.shared).2 }.setThread t { s.threads t with
          sched := (S.spawnThread s.shared).1 }).pool g = s.pool g :=
        pool_same (s := { s with shared := (S.spawnThread s.shared).2 }) rfl
      rw [hands_of_ne (by simp), pool_callback_none, hsame]
      exact .goes (.start hst)
    · cases h
  | tick =>
    simp only [threadStep] at h
    split at h
    · rename_i hp
      cases h
      have hst : ((s.pool g).desks t).stage = .poll := stage_pool (Pc.eq_poll hp.1)
      rw [hands_of_ne (by simp), pool_callback_none]
      exact .goes (.tick hst hp.2)
    · cases h
  | notify id =>
    simp only [threadStep] at h
    split at h
    · rename_i hp
      exact path_notify (Pc.eq_poll hp) h
    · cases h
  | ready =>
    simp only [threadStep] at h
    split at h
    · rename_i r e rest hp _
      cases h
      have hsame : (s.setThread t { s.threads t with batch := rest }).pool g = s.pool g := pool_same rfl
      rw [hands_of_ne (by simp), ← hsame]
      exact path_ready (by rw [setThread_self]; exact hp) r e
    · cases h
  | timeout slot =>
    simp only [threadStep] at h
    split at h
    · rename_i tick r hp _
      cases h
      have hsame : (s.setThread t { s.threads t with wheel := Function.update (s.threads t).wheel slot none }).pool g =
          s.pool g := pool_same rfl
      rw [hands_of_ne (by simp), ← hsame]
      exact path_ready (by rw [setThread_self]; exact hp) r EventSet.ofReadable
    · cases h
  | stop =>
    simp only [threadStep] at h
    split at h
    · rename_i hp
      cases h
      have hst : ((s.pool g).desks t).stage = .poll := stage_pool (Pc.eq_poll hp.1)
      rw [pool_setPc]
      exact .goes (.stop hst)
    · cases h
  | sched choice => exact path_sched h
  | register due slot tick => exact path_register h
  | user u =>
    simp only [threadStep] at h
    by_cases hpc : ∃ c ret, (s.threads t).pc = .exec c ret .user
    · obtain ⟨c, ret, hpc⟩ := hpc
      exact path_user hpc hu hmay h
    · simp only [user] at h
      split at h
      · rename_i c ret heq
        exact (hpc ⟨c, ret, heq⟩).elim
      · cases h
  | next => exact path_next hc h

/-- **An instance takes steps of a pool.** -/
theorem step_path (may : Ret → Nat → Prop) (hc : Custody s) {a : Action α} (hu : s.unwinds a) (hmay : Allows may s a)
    (h : s.step cfg a = some s') : (s.pool g).Path may (s'.pool (s.hands g a)) := by
  cases a with
  | thread t a =>
    obtain ⟨-, -, h⟩ := step_thread h
    exact path_thread hc hu hmay h
  | sender n i a =>
    obtain ⟨chan, out, -, rfl | ⟨l, r, -, rfl⟩⟩ := senderStep_some h
    · exact .refl may _
    · have hpool := pool_send (s := s.setChan (.user n) chan) (g := g) l (.channelMsg r) rfl
      rw [hands_of_ne (by simp), hpool]
      exact .refl may _
  | receiver ch a =>
    obtain ⟨chan, taken, n, rfl, -⟩ := receiverStep_some h
    exact .refl may _
  | ioReady t n e =>
    obtain ⟨r, -, rfl⟩ := step_ioReady h
    exact path_same rfl

/-- The pool of a new instance. -/
theorem sound_start (S : Sched) (w : Nat) (α : Type) (bound : Nat → Option Nat) :
    Sound ((Instance.start S w bound : Instance S w α).pool (fun _ => 0)) := by
  have hslab : (Slab.empty slabCapacity : Slab startingId Nat).insertAt startingId 0 =
      some ⟨some 0 :: List.replicate (slabCapacity - 1) none⟩ := rfl
  obtain ⟨-, hget, -, -⟩ := Slab.insertAt_some hslab
  generalize hs : (Instance.start S w bound : Instance S w α).pool (fun _ => 0) = p
  have hdesk : ∀ t, p.desks t = ({ Thread.new S α with
      coroutines := if t = 0 then ⟨some 0 :: List.replicate (slabCapacity - 1) none⟩ else Slab.empty slabCapacity
      spawned := if t = 0 then [Handle.new 0] else [] } : Thread S α).desk := by
    intro t
    rw [← hs]
    simp only [pool, Instance.start, Function.update_apply]
    by_cases ht : t = 0
    · rw [if_pos ht, if_pos ht, if_pos ht]
    · rw [if_neg ht, if_neg ht, if_neg ht]
      rfl
  have hfiber : ∀ c, p.fibers c = if c = 0 then .new startingId (some 0) 0 else .new 0 none 0 := by
    intro c
    rw [← hs]
    simp only [pool, Instance.start, Function.update_apply]
    split <;> rfl
  have hcoN : p.coN = 1 := by rw [← hs]; rfl
  have hst : ∀ t, (p.desks t).stage = .starting := fun t => by rw [hdesk]; rfl
  have hsd : ∀ t, (p.desks t).isShuttingDown = false := fun t => by rw [hdesk]; rfl
  have hmoving : ∀ t, (p.desks t).moving = [] := fun t => by rw [hdesk]; rfl
  have hgets : ∀ t id c, (p.desks t).coroutines.get id = some c ↔ t = 0 ∧ id = startingId ∧ c = 0 := by
    intro t id c
    rw [hdesk, Thread.desk]
    simp only
    by_cases ht : t = 0
    · rw [if_pos ht, hget, Slab.get_empty]
      split
      · simp [*, eq_comm]
      · simp [*]
    · rw [if_neg ht, Slab.get_empty]
      simp [ht]
  have hat : ∀ t c, (p.fibers c).handler = some t ↔ t = 0 ∧ c = 0 := by
    intro t c
    rw [hfiber]
    split
    · simp [Fiber.new, *, eq_comm]
    · simp [Fiber.new, *]
  have hready : ∀ c, (p.fibers c).state = .ready ∧ (p.fibers c).killed = false ∧ (p.fibers c).children = [] ∧
      (p.fibers c).handed = 0 := by
    intro c
    rw [hfiber]
    split <;> exact ⟨rfl, rfl, rfl, rfl⟩
  have hwait : ∀ t c, p.waiting t c + (p.desks t).stage.inHand c = if t = 0 ∧ c = 0 then 1 else 0 := by
    intro t c
    rw [Pool.waiting, hst, Stage.kids_none rfl, Stage.inHand_none rfl, hdesk]
    by_cases ht : t = 0
    · simp only [Desk.queued, Thread.desk, if_pos ht, Thread.new, List.map_nil, List.count_nil, List.map_cons, count_head]
      by_cases hc : c = 0 <;> simp [ht, hc, Handle.new]
    · simp only [Desk.queued, Thread.desk, if_neg ht, Thread.new, List.map_nil, List.count_nil]
      simp [ht]
  refine ⟨fun t => ⟨⟨fun c hc => ?_, fun _ c => ?_, fun _ c _ => ⟨(hready c).1, (hready c).2.1⟩⟩, ?_,
    ⟨fun id c hg => ?_, fun c hc _ => ?_⟩, ⟨fun hi => ?_, fun hn => ?_, fun hs => ?_, fun i last hw => ?_, fun hs => ?_⟩,
    ⟨fun q _ hk => (hk (hready q).2.2.1).elim, fun c _ hk => ?_, fun _ _ c hc _ => .inr (.inl ?_)⟩, ?_⟩,
    fun c hc => ⟨⟨?_, (hready c).1, (hready c).2.1, (hready c).2.2.1⟩, (hready c).2.2.2⟩, fun t c hc => ?_, fun t => ?_,
    fun t t' c hc => ?_⟩
  · rw [hwait] at hc
    rw [hat]
    by_contra hn
    rw [if_neg hn] at hc
    exact Nat.lt_irrefl 0 hc
  · rw [hwait]
    split <;> omega
  · rw [hst]
    trivial
  · obtain ⟨rfl, rfl, rfl⟩ := (hgets t id c).1 hg
    rw [hfiber, if_pos rfl]
    exact ⟨rfl, rfl, by simp [Fiber.new]⟩
  · obtain ⟨rfl, rfl⟩ := (hat t c).1 hc
    rw [hgets, hfiber, if_pos rfl]
    exact ⟨rfl, rfl, rfl⟩
  · rw [hst] at hi
    cases hi
  · rw [hst] at hn
    cases hn
  · rw [hsd] at hs
    cases hs
  · rw [hst] at hw
    cases hw
  · rw [hsd] at hs
    cases hs
  · rw [(hready c).2.1] at hk
    cases hk
  · rw [hwait, if_pos ((hat t c).1 hc)]
    exact Nat.one_pos
  · rw [hst]
    simp
  · rw [hfiber, if_neg (by omega)]
    rfl
  · rw [hmoving] at hc
    cases hc
  · rw [hmoving]
    exact List.nodup_nil
  · rw [hmoving] at hc
    cases hc

theorem settled_start (S : Sched) (w : Nat) (α : Type) (bound : Nat → Option Nat) :
    ((Instance.start S w bound : Instance S w α).pool (fun _ => 0)).Settled := by
  intro q hq
  simp only [pool, Instance.start, Function.update_apply] at hq ⊢
  split at hq
  · cases hq
  · rename_i hq0
    rw [if_neg hq0]
    exact ⟨rfl, rfl, rfl, rfl⟩

/-- **The handles of every run** in which a coroutine that is being killed does not switch out. -/
theorem sound_reach {S : Sched} {w : Nat} {α : Type} {cfg : Config} {bound : Nat → Option Nat} {s : Instance S w α}
    (h : (mioco S w α cfg bound).Reach (fun s a => s.unwinds a) s) :
    ∃ g, Sound (s.pool g) ∧ (s.pool g).Settled := by
  refine h.invariant_of Custody (fun s => ∃ g, Sound (s.pool g) ∧ (s.pool g).Settled) (fun _ hr => Custody.reach hr)
    (fun s hs => ?_) (fun s a s' hc hg hu hst _ => ?_)
  · cases (show s = Instance.start S w bound from hs)
    exact ⟨fun _ => 0, sound_start S w α bound, settled_start S w α bound⟩
  · obtain ⟨g, hg, hl⟩ := hg
    have hpath := step_path (g := g) (fun _ _ => True) hc hu (fun _ _ _ _ _ _ => trivial) hst
    exact ⟨s.hands g a, hpath.sound hg, hpath.settled hg hl⟩

end Instance
end Mioco

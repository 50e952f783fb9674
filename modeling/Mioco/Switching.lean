import Mathlib.Logic.Function.Basic
import Mioco.Lib.System
import Mioco.Instance
/-!
# Contexts (src/coroutine.rs, src/thread.rs)

A context is a stack that control has left.  `World` has the stack of the threads and of the coroutines, with what runs
on them: the event loops of any number of instances, one inside another where a coroutine starts a further instance.
An event loop uses the handles of its own coroutines only, and a coroutine function may do anything at any time.
-/
namespace Mioco.Switching

open Lib (System)

/-- A native stack, that of a thread or that of a coroutine; also the `Context` it is left in. -/
inductive StackId
  | base (t : Nat)
  | co (c : Nat)
deriving DecidableEq, Repr

/-- The coroutine whose stack it is. -/
def StackId.owner : StackId → Option Nat
  | base _ => none
  | co c => some c

/-- What the code on a stack is doing. -/
inductive Place
  /-- it runs, has not begun or has ended -/
  | here
  /-- in the `resume` of `jump_in`, with the pointer it saved -/
  | jumpIn (c : Nat) (prev : Option Nat)
  /-- in the `resume` of `jump_out` -/
  | jumpOut (c : Nat)
deriving DecidableEq, Repr

structure Stack where
  /-- the event loops that run on it, the innermost first -/
  loops : List Nat
  place : Place
deriving DecidableEq, Repr

/-- How far `coroutine_context_start_fn` has got, and its `data`. -/
inductive Stage
  | unstarted
  /-- in the function of the user -/
  | running (data : Nat)
  /-- in `coroutine_main_fn`, once the coroutine is `Finished` -/
  | exiting (data : Nat)
  /-- after the last `context.resume(0)` -/
  | ended
deriving DecidableEq, Repr

structure Coroutine where
  state : CoState
  killed : Bool
  context : Option StackId
  /-- `coroutine_func` is `Some` -/
  func : Bool
  /-- `handler_shared` -/
  handler : Option Nat
  /-- `self_rc` is `Some` -/
  selfRc : Bool
deriving DecidableEq, Repr

/-- An `unwrap` that failed, or control that arrived where nothing waits for it. -/
inductive Fault
  /-- `co.context.take().unwrap()` in `jump_in` -/
  | noContext
  /-- `out_context().take().unwrap()` in `jump_out` and at the end of the start function -/
  | noOutContext
  /-- `coroutine_func.take().unwrap()` -/
  | noFunc
  /-- `handler_shared.as_ref().unwrap()` -/
  | noHandler
  /-- `tl_current_coroutine` outside of a coroutine -/
  | outside
  | astray
deriving DecidableEq, Repr

structure World where
  /-- `TL_CURRENT_COROUTINE` of every thread -/
  tl : Nat → Option Nat
  /-- the stack every thread runs on -/
  active : Nat → StackId
  stack : StackId → Stack
  stage : Nat → Stage
  /-- `HandlerShared.context` -/
  contexts : Nat → Option StackId
  handlerN : Nat
  cos : Nat → Coroutine
  coN : Nat
  fault : Option Fault

/-- What the code that runs on a thread does. -/
inductive Act
  /-- `Mioco::run`, up to its event loop -/
  | start
  /-- the event loop ends, or it unwinds -/
  | stop
  /-- `Coroutine::spawn` in `thread_loop` -/
  | spawn
  | spawnChild
  /-- an event loop uses a handle -/
  | resume (c : Nat)
  | kill (c : Nat)
  /-- `unblock` and `unblock_after_yield` -/
  | wake (c : Nat)
  | migrate (c : Nat)
  | reattach (c : Nat)
  /-- `yield_now`, or `select_wait` and `block_on` -/
  | yieldNow
  | block
  /-- the function of the coroutine returns or unwinds -/
  | finish
  /-- `coroutine_main_fn` returns -/
  | exit
deriving DecidableEq, Repr

namespace World

def setCo (w : World) (c : Nat) (co : Coroutine) : World := { w with cos := Function.update w.cos c co }

def setPlace (w : World) (S : StackId) (p : Place) : World :=
  { w with stack := Function.update w.stack S { w.stack S with place := p } }

def setStage (w : World) (c : Nat) (g : Stage) : World := { w with stage := Function.update w.stage c g }

def setTl (w : World) (t : Nat) (c : Option Nat) : World := { w with tl := Function.update w.tl t c }

def setActive (w : World) (t : Nat) (S : StackId) : World := { w with active := Function.update w.active t S }

def setContext (w : World) (h : Nat) (ctx : Option StackId) : World :=
  { w with contexts := Function.update w.contexts h ctx }

/-- `handler_shared.as_ref().unwrap()`. -/
def handlerShared (w : World) (c : Nat) : Except Fault Nat :=
  match (w.cos c).handler with
  | some h => .ok h
  | none => .error .noHandler

/-- `*out_context() = Some(ctx)`. -/
def setOut (w : World) (c : Nat) (ctx : StackId) : Except Fault World := do
  let h ← w.handlerShared c
  return w.setContext h (some ctx)

/-- `out_context().take().unwrap()`. -/
def takeOut (w : World) (c : Nat) : Except Fault (StackId × World) := do
  let h ← w.handlerShared c
  match w.contexts h with
  | some ctx => return (ctx, w.setContext h none)
  | none => throw .noOutContext

/-- The stack `ctx` goes on, on thread `t`, with the context of the stack that was left and the data passed. -/
def arrive (w : World) (t : Nat) (ctx left : StackId) (data : Option Nat) : Except Fault World :=
  let w := w.setActive t ctx
  match (w.stack ctx).place with
  | .jumpIn c prev =>
    -- the end of `jump_in`
    return ((w.setPlace ctx .here).setCo c { w.cos c with context := some left }).setTl t prev
  | .jumpOut c => (w.setPlace ctx .here).setOut c left
  | .here =>
    match ctx with
    | .base _ => throw .astray
    | .co c =>
      match w.stage c, data with
      | .unstarted, some d => do
        let w ← w.setOut d left
        if (w.cos d).func then return (w.setCo d { w.cos d with func := false }).setStage c (.running d)
        else throw .noFunc
      | .unstarted, none => throw .astray
      -- `unreachable!()`
      | _, _ => return w

/-- `resume_ontop` with `unwind_stack`; the code on the stack unwinds. -/
def unwindStack (w : World) (t : Nat) (ctx left : StackId) (c : Nat) : Except Fault World := do
  let w ← (w.setActive t ctx).setOut c left
  return w.setPlace ctx .here

def jumpIn (w : World) (t c : Nat) : Except Fault World :=
  let co := w.cos c
  if co.state = .finished then return w
  else
    match co.context with
    | none => throw .noContext
    | some ctx =>
      let left := w.active t
      let w' := ((w.setPlace left (.jumpIn c (w.tl t))).setTl t (some c)).setCo c { co with context := none }
      -- `killed && was_running_before`
      if co.killed = true ∧ co.func = false then w'.unwindStack t ctx left c
      else w'.arrive t ctx left (some c)

def jumpOut (w : World) (t c : Nat) : Except Fault World := do
  let (ctx, w') ← w.takeOut c
  (w'.setPlace (w.active t) (.jumpOut c)).arrive t ctx (w.active t) none

/-- The state is set first; without `self_rc` the caller panics, and goes on if it catches that. -/
def switchOut (w : World) (t c : Nat) (state : CoState) : Except Fault World :=
  let w := w.setCo c { w.cos c with state := state }
  if (w.cos c).selfRc then w.jumpOut t c else return w

/-- `coroutine_main_fn` after its `catch_unwind`, up to the exit status. -/
def finish (w : World) (t c data : Nat) : Except Fault World :=
  match w.tl t with
  | none => throw .outside
  | some d => do
    let _ ← w.handlerShared d
    return (w.setCo d { w.cos d with state := .finished, selfRc := false }).setStage c (.exiting data)

/-- The end of the start function. -/
def exit (w : World) (t c data : Nat) : Except Fault World := do
  let (ctx, w') ← w.takeOut data
  (w'.setStage c .ended).arrive t ctx (.co c) none

/-- `Coroutine::spawn`. -/
def spawn (w : World) (h : Nat) : World :=
  { w.setCo w.coN ⟨.ready, false, some (.co w.coN), true, some h, true⟩ with coN := w.coN + 1 }

/-- The event loop that runs on thread `t`. -/
def loop (w : World) (t : Nat) : Option Nat := (w.stack (w.active t)).loops.head?

/-- The code of an event loop or of a user runs on thread `t`. -/
def live (w : World) (t : Nat) : Bool :=
  match w.active t with
  | .base _ => true
  | .co c => match w.stage c with | .running _ | .exiting _ => true | .unstarted | .ended => false

/-- Coroutine `c` is attached to the event loop that runs on thread `t`. -/
def mine (w : World) (t c : Nat) : Bool := (w.loop t).isSome && decide ((w.cos c).handler = w.loop t)

def setLoops (w : World) (S : StackId) (l : List Nat) : World :=
  { w with stack := Function.update w.stack S { w.stack S with loops := l } }

def act (w : World) (t : Nat) : Act → Option (Except Fault World)
  | .start =>
    let S := w.active t
    some (.ok { (w.setLoops S (w.handlerN :: (w.stack S).loops)).setContext w.handlerN none with
      handlerN := w.handlerN + 1 })
  | .stop =>
    match (w.stack (w.active t)).loops with
    | _ :: rest => some (.ok (w.setLoops (w.active t) rest))
    | [] => none
  | .spawn => (w.loop t).map fun h => .ok (w.spawn h)
  | .spawnChild => (w.tl t).map fun c => do
    let h ← w.handlerShared c
    return w.spawn h
  | .resume c => if w.mine t c then some (w.jumpIn t c) else none
  | .kill c => if w.mine t c then some ((w.setCo c { w.cos c with killed := true }).jumpIn t c) else none
  | .wake c =>
    if w.mine t c = true ∧ ((w.cos c).state = .blocked ∨ (w.cos c).state = .yielding) then
      some (.ok (w.setCo c { w.cos c with state := .ready }))
    else none
  | .migrate c => if w.mine t c then some (.ok (w.setCo c { w.cos c with handler := none })) else none
  | .reattach c =>
    if c < w.coN ∧ (w.cos c).handler = none ∧ (w.loop t).isSome = true then
      some (.ok (w.setCo c { w.cos c with handler := w.loop t }))
    else none
  | .yieldNow => (w.tl t).map fun c => w.switchOut t c .yielding
  | .block => (w.tl t).map fun c => w.switchOut t c .blocked
  | .finish =>
    match w.active t, (w.stack (w.active t)).loops with
    | .co c, [] => match w.stage c with | .running d => some (w.finish t c d) | _ => none
    | _, _ => none
  | .exit =>
    match w.active t, (w.stack (w.active t)).loops with
    | .co c, [] => match w.stage c with | .exiting d => some (w.exit t c d) | _ => none
    | _, _ => none

def step (w : World) (a : Nat × Act) : Option World :=
  if w.live a.1 then
    (w.act a.1 a.2).map fun r => match r with | .ok w' => w' | .error f => { w with fault := some f }
  else none

/-- Every thread on its own stack, before any instance is started. -/
def start : World where
  tl _ := none
  active t := .base t
  stack _ := ⟨[], .here⟩
  stage _ := .unstarted
  contexts _ := none
  handlerN := 0
  cos c := ⟨.ready, false, some (.co c), true, none, true⟩
  coN := 0
  fault := none

/-- A `jump_in` of coroutine `c` has not returned. -/
def Executing (w : World) (c : Nat) : Prop := ∃ S prev, (w.stack S).place = .jumpIn c prev

end World

def switching : System World (Nat × Act) where
  Init w := w = World.start
  step := World.step

/-- Nobody yields or blocks in a coroutine that has ended. -/
def unfinished (w : World) (a : Nat × Act) : Prop :=
  a.2 = .yieldNow ∨ a.2 = .block → ∀ c ∈ w.tl a.1, (w.cos c).state ≠ .finished

instance (w : World) (a : Nat × Act) : Decidable (unfinished w a) :=
  inferInstanceAs (Decidable (a.2 = .yieldNow ∨ a.2 = .block → ∀ c ∈ w.tl a.1, (w.cos c).state ≠ .finished))

/-- The coroutine has begun and its function has not come to its last switch. -/
def Begun (w : World) (c : Nat) : Prop := w.stage c = .running c ∨ w.stage c = .exiting c

/-- **Where control and the contexts are.** -/
structure Sound (w : World) : Prop where
  fault : w.fault = none
  /-- a thread is on one stack, and no other thread is on it -/
  active_here : ∀ t, (w.stack (w.active t)).place = .here
  active_inj : ∀ t t', w.active t = w.active t' → t = t'
  active_co : ∀ t c, w.active t = .co c → w.Executing c
  tl : ∀ t, w.tl t = (w.active t).owner
  /-- in `jump_in`: from the event loop of the coroutine, whose `context` is this stack -/
  saved : ∀ S c prev, (w.stack S).place = .jumpIn c prev → prev = S.owner
  lent : ∀ S c prev, (w.stack S).place = .jumpIn c prev → (w.cos c).context = none ∧ Begun w c
  inLoop : ∀ S c prev, (w.stack S).place = .jumpIn c prev →
    ∃ h, (w.stack S).loops.head? = some h ∧ (w.cos c).handler = some h ∧ w.contexts h = some S
  /-- in `jump_out`: its own, and not after its end -/
  outside : ∀ S c, (w.stack S).place = .jumpOut c → S = .co c ∧ w.stage c = .running c
  /-- what runs in the stack of a coroutine runs in the coroutine -/
  nested : ∀ c d prev, (w.stack (.co c)).place = .jumpIn d prev → w.Executing c
  kept : ∀ h S, w.contexts h = some S → ∃ c prev, (w.stack S).place = .jumpIn c prev ∧ (w.cos c).handler = some h
  home : ∀ c, ¬ w.Executing c → (w.cos c).context = some (.co c)
  /-- an event loop runs on one stack -/
  loops : ∀ h S S', h ∈ (w.stack S).loops → h ∈ (w.stack S').loops → S = S'
  loops_lt : ∀ h S, h ∈ (w.stack S).loops → h < w.handlerN
  /-- a coroutine that is not executing has not begun, is in `jump_out`, or has ended -/
  idle : ∀ c, (w.stack (.co c)).place = .here → ¬ w.Executing c → w.stage c = .unstarted ∨ w.stage c = .ended
  func : ∀ c, (w.cos c).func = true ↔ w.stage c = .unstarted
  data : ∀ c d, w.stage c = .running d ∨ w.stage c = .exiting d → d = c
  ended_state : ∀ c, w.stage c = .exiting c ∨ w.stage c = .ended → (w.cos c).state = .finished
  selfRc : ∀ c, (w.cos c).state ≠ .finished → (w.cos c).selfRc = true
  attached_lt : ∀ c h, (w.cos c).handler = some h → c < w.coN
  fresh : ∀ c, w.coN ≤ c → w.stage c = .unstarted

namespace Sound
variable {w : World} {t c h : Nat} {S S' : StackId}

/-- A coroutine is jumped into from one place. -/
theorem single {prev prev' : Option Nat} (hw : Sound w) (h1 : (w.stack S).place = .jumpIn c prev)
    (h2 : (w.stack S').place = .jumpIn c prev') : S = S' := by
  obtain ⟨h, hl, hh, -⟩ := hw.inLoop S c prev h1
  obtain ⟨h', hl', hh', -⟩ := hw.inLoop S' c prev' h2
  rw [hh] at hh'
  cases hh'
  exact hw.loops h S S' (List.mem_of_mem_head? hl) (List.mem_of_mem_head? hl')

/-- **Where an event loop runs, no coroutine of it is executing.** -/
theorem not_executing (hw : Sound w) (hl : w.loop t = some h) (hc : (w.cos c).handler = some h) :
    ¬ w.Executing c := by
  rintro ⟨S, prev, hS⟩
  obtain ⟨h', hl', hh', -⟩ := hw.inLoop S c prev hS
  rw [hc] at hh'
  cases hh'
  have hsame := hw.loops h _ _ (List.mem_of_mem_head? hl) (List.mem_of_mem_head? hl')
  have hhere := hw.active_here t
  rw [hsame, hS] at hhere
  cases hhere

theorem contexts_none (hw : Sound w) (hl : w.loop t = some h) : w.contexts h = none := by
  cases hctx : w.contexts h with
  | none => rfl
  | some S =>
    obtain ⟨c, prev, hS, hc⟩ := hw.kept h S hctx
    exact absurd ⟨S, prev, hS⟩ (hw.not_executing hl hc)

end Sound

/-! ## Into a coroutine -/

/-- Thread `t` has switched from stack `S` to coroutine `c` of event loop `h`. -/
def World.entered (w : World) (t : Nat) (S : StackId) (c h : Nat) : World :=
  { w with
    tl := Function.update w.tl t (some c)
    active := Function.update w.active t (.co c)
    stack := Function.update (Function.update w.stack S { w.stack S with place := .jumpIn c (w.tl t) }) (.co c)
      { w.stack (.co c) with place := .here }
    cos := Function.update w.cos c { w.cos c with context := none, func := false }
    stage := Function.update w.stage c (.running c)
    contexts := Function.update w.contexts h (some S) }

namespace Sound
variable {w : World} {t c h : Nat} {S : StackId}

/-- A coroutine that can be resumed has not begun, or waits in `jump_out`. -/
theorem resumable (hw : Sound w) (hc : ¬ w.Executing c) (hf : (w.cos c).state ≠ .finished) :
    (w.stage c = .unstarted ∧ (w.stack (.co c)).place = .here) ∨
      (w.stage c = .running c ∧ (w.stack (.co c)).place = .jumpOut c) := by
  cases hp : (w.stack (.co c)).place with
  | here =>
    rcases hw.idle c hp hc with hg | hg
    · exact .inl ⟨hg, rfl⟩
    · exact absurd (hw.ended_state c (.inr hg)) hf
  | jumpIn d prev => exact absurd (hw.nested c d prev hp) hc
  | jumpOut d =>
    obtain ⟨hd, hg⟩ := hw.outside _ d hp
    cases hd
    exact .inr ⟨hg, rfl⟩

/-- **`jump_in` finds every context it needs.** -/
theorem jumpIn_ok (hw : Sound w) (hl : w.loop t = some h) (hc : (w.cos c).handler = some h)
    (hf : (w.cos c).state ≠ .finished) : w.jumpIn t c = .ok (w.entered t (w.active t) c h) := by
  have hnot := hw.not_executing hl hc
  have hne : StackId.co c ≠ w.active t := fun he => hnot (hw.active_co t c he.symm)
  have hcontext := hw.home c hnot
  unfold World.jumpIn
  simp only [if_neg hf, hcontext]
  rcases hw.resumable hnot hf with ⟨hg, hp⟩ | ⟨hg, hp⟩
  · have hfunc : (w.cos c).func = true := (hw.func c).2 hg
    have hself : (⟨(w.stack (.co c)).loops, .here⟩ : Stack) = w.stack (.co c) := by rw [← hp]
    have hstack := Function.update_eq_self (StackId.co c)
      (Function.update w.stack (w.active t) { w.stack (w.active t) with place := .jumpIn c (w.tl t) })
    rw [Function.update_of_ne hne] at hstack
    rw [if_neg (by rw [hfunc]; exact fun hk => Bool.noConfusion hk.2)]
    simp only [World.arrive, World.setActive, World.setCo, World.setTl, World.setPlace, Function.update_of_ne hne, hp, hg,
      World.setOut, World.handlerShared, Function.update_self, hc, World.setContext, World.setStage, bind, Except.bind,
      pure, Except.pure, hfunc, if_true, Function.update_idem, World.entered, hself, hstack]
  · have hfunc : (w.cos c).func = false := by
      cases hfn : (w.cos c).func with
      | false => rfl
      | true =>
        have hun := (hw.func c).1 hfn
        rw [hg] at hun
        cases hun
    have hstage := Function.update_eq_self c w.stage
    rw [hg] at hstage
    split <;> simp only [World.unwindStack, World.arrive, World.setActive, World.setCo, World.setTl, World.setPlace,
        Function.update_of_ne hne, hp, World.setOut, World.handlerShared, Function.update_self, hc, World.setContext, bind,
        Except.bind, pure, Except.pure, World.entered, hstage, hfunc]

end Sound

section entered
variable {w : World} {t c h : Nat} {S : StackId}

theorem entered_loops (X : StackId) : ((w.entered t S c h).stack X).loops = (w.stack X).loops := by
  simp only [World.entered, Function.update_apply]
  split
  · rename_i hX
    rw [hX]
  · split
    · rename_i hX
      rw [hX]
    · rfl

theorem entered_place (X : StackId) : ((w.entered t S c h).stack X).place =
    if X = .co c then .here else if X = S then .jumpIn c (w.tl t) else (w.stack X).place := by
  simp only [World.entered, Function.update_apply]
  split
  · rfl
  · split <;> rfl

theorem entered_jumpIn {X : StackId} {d : Nat} {prev : Option Nat}
    (hX : ((w.entered t S c h).stack X).place = .jumpIn d prev) :
    (X = S ∧ d = c ∧ prev = w.tl t) ∨ (X ≠ .co c ∧ (w.stack X).place = .jumpIn d prev) := by
  rw [entered_place] at hX
  split at hX
  · cases hX
  · rename_i hne
    split at hX
    · rename_i hXS
      cases hX
      exact .inl ⟨hXS, rfl, rfl⟩
    · exact .inr ⟨hne, hX⟩

theorem entered_stage (d : Nat) : (w.entered t S c h).stage d = if d = c then .running c else w.stage d := by
  simp only [World.entered, Function.update_apply]

theorem entered_cos (d : Nat) : (w.entered t S c h).cos d =
    if d = c then { w.cos c with context := none, func := false } else w.cos d := by
  simp only [World.entered, Function.update_apply]

theorem entered_active (t' : Nat) : (w.entered t S c h).active t' = if t' = t then .co c else w.active t' := by
  simp only [World.entered, Function.update_apply]

theorem entered_tl (t' : Nat) : (w.entered t S c h).tl t' = if t' = t then some c else w.tl t' := by
  simp only [World.entered, Function.update_apply]

theorem entered_contexts (h' : Nat) :
    (w.entered t S c h).contexts h' = if h' = h then some S else w.contexts h' := by
  simp only [World.entered, Function.update_apply]

end entered

namespace Sound
variable {w : World} {t c h : Nat}

theorem executing_entered (hw : Sound w) (hl : w.loop t = some h) (hc : (w.cos c).handler = some h) (d : Nat) :
    (w.entered t (w.active t) c h).Executing d ↔ d = c ∨ w.Executing d := by
  have hnot := hw.not_executing hl hc
  have hne : w.active t ≠ StackId.co c := fun he => hnot (hw.active_co t c he)
  constructor
  · rintro ⟨X, prev, hX⟩
    rcases entered_jumpIn hX with ⟨-, hd, -⟩ | ⟨-, hX⟩
    · exact .inl hd
    · exact .inr ⟨X, prev, hX⟩
  · rintro (rfl | ⟨X, prev, hX⟩)
    · refine ⟨w.active t, w.tl t, ?_⟩
      rw [entered_place, if_neg hne, if_pos rfl]
    · refine ⟨X, prev, ?_⟩
      rw [entered_place, if_neg, if_neg, hX]
      · rintro rfl
        rw [hw.active_here t] at hX
        cases hX
      · rintro rfl
        exact hnot (hw.nested _ _ _ hX)

/-- **Switching into a coroutine keeps everything in its place.** -/
theorem entered (hw : Sound w) (hl : w.loop t = some h) (hc : (w.cos c).handler = some h)
    (hf : (w.cos c).state ≠ .finished) : Sound (w.entered t (w.active t) c h) := by
  have hnot := hw.not_executing hl hc
  have hne : w.active t ≠ StackId.co c := fun he => hnot (hw.active_co t c he)
  have hexec := hw.executing_entered hl hc
  have hcos : ∀ d, ((w.entered t (w.active t) c h).cos d).handler = (w.cos d).handler ∧
      ((w.entered t (w.active t) c h).cos d).state = (w.cos d).state ∧
      ((w.entered t (w.active t) c h).cos d).selfRc = (w.cos d).selfRc := by
    intro d
    rw [entered_cos]
    split
    · rename_i hd
      rw [hd]
      exact ⟨rfl, rfl, rfl⟩
    · exact ⟨rfl, rfl, rfl⟩
  have hother : ∀ d, ¬ (w.entered t (w.active t) c h).Executing d → d ≠ c ∧ ¬ w.Executing d := fun d hd =>
    ⟨fun he => hd ((hexec d).2 (.inl he)), fun he => hd ((hexec d).2 (.inr he))⟩
  constructor
  case fault => exact hw.fault
  case active_here =>
    intro t'
    rw [entered_active, entered_place]
    split
    · rw [if_pos rfl]
    · rename_i ht
      rw [if_neg fun he => hnot (hw.active_co t' c he), if_neg fun he => ht (hw.active_inj t' t he)]
      exact hw.active_here t'
  case active_inj =>
    intro t1 t2 he
    rw [entered_active, entered_active] at he
    split at he <;> split at he <;> rename_i h1 h2
    · rw [h1, h2]
    · exact absurd (hw.active_co t2 c he.symm) hnot
    · exact absurd (hw.active_co t1 c he) hnot
    · exact hw.active_inj t1 t2 he
  case active_co =>
    intro t' d he
    rw [entered_active] at he
    split at he
    · cases he
      exact (hexec c).2 (.inl rfl)
    · exact (hexec d).2 (.inr (hw.active_co t' d he))
  case tl =>
    intro t'
    rw [entered_tl, entered_active]
    split
    · rfl
    · exact hw.tl t'
  case saved =>
    intro X d prev hX
    rcases entered_jumpIn hX with ⟨rfl, -, rfl⟩ | ⟨-, hX⟩
    · exact hw.tl t
    · exact hw.saved X d prev hX
  case lent =>
    intro X d prev hX
    rcases entered_jumpIn hX with ⟨-, rfl, -⟩ | ⟨-, hX⟩
    · rw [entered_cos, if_pos rfl, Begun, entered_stage, if_pos rfl]
      exact ⟨rfl, .inl rfl⟩
    · have hd : d ≠ c := fun he => hnot (he ▸ ⟨X, prev, hX⟩)
      rw [entered_cos, if_neg hd, Begun, entered_stage, if_neg hd]
      exact hw.lent X d prev hX
  case inLoop =>
    intro X d prev hX
    rw [entered_loops, (hcos d).1]
    rcases entered_jumpIn hX with ⟨rfl, rfl, -⟩ | ⟨-, hX⟩
    · refine ⟨h, hl, hc, ?_⟩
      rw [entered_contexts, if_pos rfl]
    · obtain ⟨h', hl', hc', hctx⟩ := hw.inLoop X d prev hX
      refine ⟨h', hl', hc', ?_⟩
      rw [entered_contexts, if_neg, hctx]
      rintro rfl
      rw [hw.contexts_none hl] at hctx
      cases hctx
  case outside =>
    intro X d hX
    rw [entered_place] at hX
    split at hX
    · cases hX
    · rename_i hXc
      split at hX
      · cases hX
      · obtain ⟨rfl, hg⟩ := hw.outside X d hX
        refine ⟨rfl, ?_⟩
        rw [entered_stage, if_neg fun he => hXc (by rw [he])]
        exact hg
  case nested =>
    intro d d' prev hX
    rcases entered_jumpIn hX with ⟨hS, -, -⟩ | ⟨-, hX⟩
    · exact (hexec d).2 (.inr (hw.active_co t d hS.symm))
    · exact (hexec d).2 (.inr (hw.nested d d' prev hX))
  case kept =>
    intro h' X hX
    rw [entered_contexts] at hX
    split at hX
    · rename_i hh
      cases hX
      refine ⟨c, w.tl t, ?_, ?_⟩
      · rw [entered_place, if_neg hne, if_pos rfl]
      · rw [(hcos c).1, hc, hh]
    · obtain ⟨d, prev, hp, hd⟩ := hw.kept h' X hX
      refine ⟨d, prev, ?_, ?_⟩
      · rw [entered_place, if_neg, if_neg, hp]
        · rintro rfl
          rw [hw.active_here t] at hp
          cases hp
        · rintro rfl
          exact hnot (hw.nested c d prev hp)
      · rw [(hcos d).1, hd]
  case home =>
    intro d hd
    rw [entered_cos, if_neg (hother d hd).1]
    exact hw.home d (hother d hd).2
  case loops =>
    intro h' X X' hX hX'
    rw [entered_loops] at hX hX'
    exact hw.loops h' X X' hX hX'
  case loops_lt =>
    intro h' X hX
    rw [entered_loops] at hX
    exact hw.loops_lt h' X hX
  case idle =>
    intro d hX hd
    obtain ⟨hdc, hd⟩ := hother d hd
    rw [entered_place, if_neg fun he => hdc (by cases he; rfl), if_neg fun he => hd (hw.active_co t d he.symm)] at hX
    rw [entered_stage, if_neg hdc]
    exact hw.idle d hX hd
  case func =>
    intro d
    rw [entered_cos, entered_stage]
    split
    · exact ⟨fun hb => Bool.noConfusion hb, fun hg => by cases hg⟩
    · exact hw.func d
  case data =>
    intro d d' hg
    rw [entered_stage] at hg
    split at hg
    · rename_i hd
      rcases hg with hg | hg <;> cases hg
      exact hd.symm
    · exact hw.data d d' hg
  case ended_state =>
    intro d hg
    rw [entered_stage] at hg
    rw [(hcos d).2.1]
    split at hg
    · rcases hg with hg | hg <;> cases hg
    · exact hw.ended_state d hg
  case selfRc =>
    intro d hd
    rw [(hcos d).2.1] at hd
    rw [(hcos d).2.2]
    exact hw.selfRc d hd
  case attached_lt =>
    intro d h' hd
    rw [(hcos d).1] at hd
    exact hw.attached_lt d h' hd
  case fresh =>
    intro d hd
    rw [entered_stage, if_neg]
    · exact hw.fresh d hd
    · rintro rfl
      exact absurd (hw.attached_lt d h hc) (Nat.not_lt.2 hd)

end Sound

/-! ## Out of a coroutine -/

/-- Thread `t` has switched from coroutine `c` of event loop `h` back to the `jump_in` on stack `S`. -/
def World.returned (w : World) (t : Nat) (S : StackId) (c h : Nat) (p : Place) (g : Stage) : World :=
  { w with
    tl := Function.update w.tl t S.owner
    active := Function.update w.active t S
    stack := Function.update (Function.update w.stack (.co c) { w.stack (.co c) with place := p }) S
      { w.stack S with place := .here }
    cos := Function.update w.cos c { w.cos c with context := some (.co c) }
    stage := Function.update w.stage c g
    contexts := Function.update w.contexts h none }

section returned
variable {w : World} {t c h : Nat} {S : StackId} {p : Place} {g : Stage}

theorem returned_loops (X : StackId) : ((w.returned t S c h p g).stack X).loops = (w.stack X).loops := by
  simp only [World.returned, Function.update_apply]
  split
  · rename_i hX
    rw [hX]
  · split
    · rename_i hX
      rw [hX]
    · rfl

theorem returned_place (X : StackId) : ((w.returned t S c h p g).stack X).place =
    if X = S then .here else if X = .co c then p else (w.stack X).place := by
  simp only [World.returned, Function.update_apply]
  split
  · rfl
  · split <;> rfl

theorem returned_stage (d : Nat) : (w.returned t S c h p g).stage d = if d = c then g else w.stage d := by
  simp only [World.returned, Function.update_apply]

theorem returned_cos (d : Nat) : (w.returned t S c h p g).cos d =
    if d = c then { w.cos c with context := some (.co c) } else w.cos d := by
  simp only [World.returned, Function.update_apply]

theorem returned_active (t' : Nat) : (w.returned t S c h p g).active t' = if t' = t then S else w.active t' := by
  simp only [World.returned, Function.update_apply]

theorem returned_tl (t' : Nat) : (w.returned t S c h p g).tl t' = if t' = t then S.owner else w.tl t' := by
  simp only [World.returned, Function.update_apply]

theorem returned_contexts (h' : Nat) :
    (w.returned t S c h p g).contexts h' = if h' = h then none else w.contexts h' := by
  simp only [World.returned, Function.update_apply]

end returned

/-- The coroutine that thread `t` runs was jumped into from stack `S`, by event loop `h`. -/
structure Entered (w : World) (t c h : Nat) (S : StackId) : Prop where
  active : w.active t = .co c
  handler : (w.cos c).handler = some h
  context : w.contexts h = some S
  place : (w.stack S).place = .jumpIn c S.owner

/-- How a coroutine may leave its stack. -/
inductive Leaves (w : World) (c : Nat) : Place → Stage → Prop
  | switch : w.stage c = .running c → Leaves w c (.jumpOut c) (.running c)
  | last : (w.cos c).state = .finished → Leaves w c .here .ended

namespace Sound
variable {w : World} {t c h : Nat} {S : StackId} {p : Place} {g : Stage}

/-- **The coroutine that runs finds its way back.** -/
theorem return_point (hw : Sound w) (ht : w.active t = .co c) : ∃ h S, Entered w t c h S := by
  obtain ⟨S, prev, hS⟩ := hw.active_co t c ht
  obtain ⟨h, -, hc, hctx⟩ := hw.inLoop S c prev hS
  have hprev := hw.saved S c prev hS
  exact ⟨h, S, ht, hc, hctx, hprev ▸ hS⟩

theorem begun (hw : Sound w) (he : Entered w t c h S) : Begun w c := (hw.lent S c _ he.place).2

theorem ne_stack (hw : Sound w) (he : Entered w t c h S) : S ≠ .co c := by
  rintro rfl
  have hhere := hw.active_here t
  rw [he.active, he.place] at hhere
  cases hhere

theorem returned_jumpIn (hl : Leaves w c p g) {X : StackId} {d : Nat} {prev : Option Nat} :
    ((w.returned t S c h p g).stack X).place = .jumpIn d prev ↔
      X ≠ S ∧ X ≠ .co c ∧ (w.stack X).place = .jumpIn d prev := by
  rw [returned_place]
  constructor
  · intro hX
    split at hX
    · cases hX
    · rename_i hXS
      split at hX
      · cases hl <;> cases hX
      · rename_i hXc
        exact ⟨hXS, hXc, hX⟩
  · rintro ⟨hXS, hXc, hX⟩
    rw [if_neg hXS, if_neg hXc, hX]

theorem executing_returned (hw : Sound w) (he : Entered w t c h S) (hl : Leaves w c p g) (d : Nat) :
    (w.returned t S c h p g).Executing d ↔ d ≠ c ∧ w.Executing d := by
  constructor
  · rintro ⟨X, prev, hX⟩
    obtain ⟨hXS, -, hold⟩ := (returned_jumpIn hl).1 hX
    refine ⟨fun hd => hXS ?_, X, prev, hold⟩
    rw [hd] at hold
    exact hw.single hold he.place
  · rintro ⟨hd, X, prev, hX⟩
    refine ⟨X, prev, (returned_jumpIn hl).2 ⟨?_, ?_, hX⟩⟩
    · rintro rfl
      rw [he.place] at hX
      cases hX
      exact hd rfl
    · rintro rfl
      have hhere := hw.active_here t
      rw [he.active, hX] at hhere
      cases hhere

/-- **Switching out of a coroutine keeps everything in its place.** -/
theorem returned (hw : Sound w) (he : Entered w t c h S) (hl : Leaves w c p g) : Sound (w.returned t S c h p g) := by
  have hne := hw.ne_stack he
  have hexec := hw.executing_returned he hl
  have hjump : ∀ X d prev, ((w.returned t S c h p g).stack X).place = .jumpIn d prev →
      X ≠ S ∧ X ≠ .co c ∧ (w.stack X).place = .jumpIn d prev := fun X d prev => (returned_jumpIn hl).1
  have hcos : ∀ d, ((w.returned t S c h p g).cos d).handler = (w.cos d).handler ∧
      ((w.returned t S c h p g).cos d).state = (w.cos d).state ∧
      ((w.returned t S c h p g).cos d).selfRc = (w.cos d).selfRc ∧
      ((w.returned t S c h p g).cos d).func = (w.cos d).func := by
    intro d
    rw [returned_cos]
    split
    · rename_i hd
      rw [hd]
      exact ⟨rfl, rfl, rfl, rfl⟩
    · exact ⟨rfl, rfl, rfl, rfl⟩
  have hothers : ∀ {t'}, t' ≠ t → w.active t' ≠ S ∧ w.active t' ≠ .co c := by
    intro t' ht
    refine ⟨fun h1 => ?_, fun h1 => ht (hw.active_inj t' t (h1.trans he.active.symm))⟩
    have hhere := hw.active_here t'
    rw [h1, he.place] at hhere
    cases hhere
  have hdne : ∀ {X d prev}, ((w.returned t S c h p g).stack X).place = .jumpIn d prev → d ≠ c := by
    intro X d prev hX
    exact ((hexec d).1 ⟨X, prev, hX⟩).1
  constructor
  case fault => exact hw.fault
  case active_here =>
    intro t'
    rw [returned_active, returned_place]
    split
    · rw [if_pos rfl]
    · rename_i ht
      rw [if_neg (hothers ht).1, if_neg (hothers ht).2]
      exact hw.active_here t'
  case active_inj =>
    intro t1 t2 h12
    rw [returned_active, returned_active] at h12
    split at h12 <;> split at h12 <;> rename_i h1 h2
    · rw [h1, h2]
    · exact absurd h12.symm (hothers h2).1
    · exact absurd h12 (hothers h1).1
    · exact hw.active_inj t1 t2 h12
  case active_co =>
    intro t' d hd
    rw [returned_active] at hd
    split at hd
    · refine (hexec d).2 ⟨fun hdc => hne (by rw [hd, hdc]), ?_⟩
      exact hw.nested d c _ (hd ▸ he.place)
    · rename_i ht
      exact (hexec d).2 ⟨fun hdc => (hothers ht).2 (by rw [hd, hdc]), hw.active_co t' d hd⟩
  case tl =>
    intro t'
    rw [returned_tl, returned_active]
    split
    · rfl
    · exact hw.tl t'
  case saved =>
    intro X d prev hX
    exact hw.saved X d prev (hjump X d prev hX).2.2
  case lent =>
    intro X d prev hX
    rw [returned_cos, if_neg (hdne hX), Begun, returned_stage, if_neg (hdne hX)]
    exact hw.lent X d prev (hjump X d prev hX).2.2
  case inLoop =>
    intro X d prev hX
    obtain ⟨hXS, -, hold⟩ := hjump X d prev hX
    obtain ⟨h', hl', hc', hctx⟩ := hw.inLoop X d prev hold
    rw [returned_loops, (hcos d).1]
    refine ⟨h', hl', hc', ?_⟩
    rw [returned_contexts, if_neg, hctx]
    rintro rfl
    rw [he.context] at hctx
    cases hctx
    exact hXS rfl
  case outside =>
    intro X d hX
    rw [returned_place] at hX
    split at hX
    · cases hX
    · split at hX
      · rename_i hXc
        cases hl with
        | switch hg =>
          cases hX
          refine ⟨hXc, ?_⟩
          rw [returned_stage, if_pos rfl]
        | last hf => cases hX
      · rename_i hXc
        obtain ⟨rfl, hg⟩ := hw.outside X d hX
        refine ⟨rfl, ?_⟩
        rw [returned_stage, if_neg fun hdc => hXc (by rw [hdc])]
        exact hg
  case nested =>
    intro d d' prev hX
    obtain ⟨-, hXc, hold⟩ := hjump _ d' prev hX
    exact (hexec d).2 ⟨fun hdc => hXc (by rw [hdc]), hw.nested d d' prev hold⟩
  case kept =>
    intro h' X hX
    rw [returned_contexts] at hX
    split at hX
    · cases hX
    · rename_i hh
      obtain ⟨d, prev, hp, hd⟩ := hw.kept h' X hX
      refine ⟨d, prev, (returned_jumpIn hl).2 ⟨?_, ?_, hp⟩, ?_⟩
      · rintro rfl
        rw [he.place] at hp
        cases hp
        rw [he.handler] at hd
        cases hd
        exact hh rfl
      · rintro rfl
        have hhere := hw.active_here t
        rw [he.active, hp] at hhere
        cases hhere
      · rw [(hcos d).1, hd]
  case home =>
    intro d hd
    rw [returned_cos]
    split
    · rename_i hdc
      rw [hdc]
    · rename_i hdc
      exact hw.home d fun hold => hd ((hexec d).2 ⟨hdc, hold⟩)
  case loops =>
    intro h' X X' hX hX'
    rw [returned_loops] at hX hX'
    exact hw.loops h' X X' hX hX'
  case loops_lt =>
    intro h' X hX
    rw [returned_loops] at hX
    exact hw.loops_lt h' X hX
  case idle =>
    intro d hX hd
    rw [returned_stage]
    split
    · rename_i hdc
      rw [returned_place, if_neg fun hS => hne (by rw [← hS, hdc]), if_pos (by rw [hdc])] at hX
      cases hl with
      | switch hg => cases hX
      | last hf => exact .inr rfl
    · rename_i hdc
      have hold : ¬ w.Executing d := fun hold => hd ((hexec d).2 ⟨hdc, hold⟩)
      rw [returned_place] at hX
      split at hX
      · rename_i hS
        exact absurd (hw.nested d c _ (hS ▸ he.place)) hold
      · rw [if_neg fun hco => hdc (by cases hco; rfl)] at hX
        exact hw.idle d hX hold
  case func =>
    intro d
    rw [(hcos d).2.2.2, returned_stage]
    split
    · rename_i hdc
      have hfunc := hw.func d
      rw [hdc] at hfunc ⊢
      have hno : w.stage c ≠ .unstarted := by
        rcases hw.begun he with hb | hb <;> rw [hb] <;> exact fun h1 => by cases h1
      refine ⟨fun hb => absurd (hfunc.1 hb) hno, fun hg => ?_⟩
      cases hl <;> cases hg
    · exact hw.func d
  case data =>
    intro d d' hg
    rw [returned_stage] at hg
    split at hg
    · rename_i hdc
      cases hl <;> rcases hg with hg | hg <;> cases hg
      exact hdc.symm
    · exact hw.data d d' hg
  case ended_state =>
    intro d hg
    rw [returned_stage] at hg
    rw [(hcos d).2.1]
    split at hg
    · rename_i hdc
      rw [hdc]
      cases hl with
      | switch h1 => rcases hg with hg | hg <;> cases hg
      | last hf => exact hf
    · exact hw.ended_state d hg
  case selfRc =>
    intro d hd
    rw [(hcos d).2.1] at hd
    rw [(hcos d).2.2.1]
    exact hw.selfRc d hd
  case attached_lt =>
    intro d h' hd
    rw [(hcos d).1] at hd
    exact hw.attached_lt d h' hd
  case fresh =>
    intro d hd
    rw [returned_stage, if_neg]
    · exact hw.fresh d hd
    · rintro rfl
      exact absurd (hw.attached_lt d h he.handler) (Nat.not_lt.2 hd)

/-- **`jump_out` finds every context it needs.** -/
theorem jumpOut_ok (hw : Sound w) (he : Entered w t c h S) (hg : w.stage c = .running c) :
    w.jumpOut t c = .ok (w.returned t S c h (.jumpOut c) (.running c)) := by
  have hne := hw.ne_stack he
  have hstage := Function.update_eq_self c w.stage
  rw [hg] at hstage
  simp only [World.jumpOut, World.takeOut, World.handlerShared, he.handler, he.context, he.active, bind, Except.bind, pure,
    Except.pure, World.arrive, World.setActive, World.setPlace, World.setContext, World.setCo, World.setTl,
    Function.update_of_ne hne, he.place, World.returned, hstage]

/-- **So does the end of the start function.** -/
theorem exit_ok (hw : Sound w) (he : Entered w t c h S) :
    w.exit t c c = .ok (w.returned t S c h .here .ended) := by
  have hne := hw.ne_stack he
  have hhere := hw.active_here t
  rw [he.active] at hhere
  have hself := Function.update_eq_self (StackId.co c) w.stack
  rw [show w.stack (.co c) = { w.stack (.co c) with place := .here } by rw [← hhere]] at hself
  simp only [World.exit, World.takeOut, World.handlerShared, he.handler, he.context, bind, Except.bind, pure, Except.pure,
    World.arrive, World.setActive, World.setPlace, World.setContext, World.setCo, World.setTl, World.setStage, he.place,
    World.returned, hself]

end Sound

/-! ## The other steps -/

namespace Sound
variable {w : World} {t c h : Nat}

/-- A coroutine is changed, its context and its function apart; its handler only while it is not executing. -/
theorem setCo {co : Coroutine} (hw : Sound w) (hcontext : co.context = (w.cos c).context)
    (hfunc : co.func = (w.cos c).func) (hhandler : w.Executing c → co.handler = (w.cos c).handler)
    (hself : co.state ≠ .finished → co.selfRc = true)
    (hended : w.stage c = .exiting c ∨ w.stage c = .ended → co.state = .finished)
    (hlt : ∀ h, co.handler = some h → c < w.coN) : Sound (w.setCo c co) := by
  have hcos : ∀ d, (w.setCo c co).cos d = if d = c then co else w.cos d := fun d => Function.update_apply ..
  have hexec : ∀ d, w.Executing d → ((w.setCo c co).cos d).handler = (w.cos d).handler := by
    intro d hd
    rw [hcos]
    split
    · rename_i hdc
      rw [hdc] at hd ⊢
      exact hhandler hd
    · rfl
  have hctx : ∀ d, ((w.setCo c co).cos d).context = (w.cos d).context := by
    intro d
    rw [hcos]
    split
    · rename_i hdc
      rw [hdc, hcontext]
    · rfl
  refine { hw with
    lent := ?lent, inLoop := ?inLoop, kept := ?kept, home := ?home, func := ?func, ended_state := ?ended_state, selfRc := ?selfRc,
    attached_lt := ?attached_lt }
  case lent =>
    intro X d prev hX
    rw [hctx]
    exact hw.lent X d prev hX
  case inLoop =>
    intro X d prev hX
    rw [hexec d ⟨X, prev, hX⟩]
    exact hw.inLoop X d prev hX
  case kept =>
    intro h' X hX
    obtain ⟨d, prev, hp, hd⟩ := hw.kept h' X hX
    refine ⟨d, prev, hp, ?_⟩
    rw [hexec d ⟨X, prev, hp⟩, hd]
  case home =>
    intro d hd
    rw [hctx]
    exact hw.home d hd
  case func =>
    intro d
    rw [hcos]
    split
    · rename_i hdc
      rw [hdc, hfunc]
      exact hw.func c
    · exact hw.func d
  case ended_state =>
    intro d hd
    rw [hcos]
    split
    · rename_i hdc
      rw [hdc] at hd
      exact hended hd
    · exact hw.ended_state d hd
  case selfRc =>
    intro d
    rw [hcos]
    split
    · exact hself
    · exact hw.selfRc d
  case attached_lt =>
    intro d h' hd
    rw [hcos] at hd
    split at hd
    · rename_i hdc
      rw [hdc]
      exact hlt h' hd
    · exact hw.attached_lt d h' hd

theorem killed (hw : Sound w) (c : Nat) : Sound (w.setCo c { w.cos c with killed := true }) :=
  hw.setCo rfl rfl (fun _ => rfl) (hw.selfRc c) (hw.ended_state c) (hw.attached_lt c)

/-- The state of a coroutine that has not ended is set. -/
theorem setState (hw : Sound w) (hf : (w.cos c).state ≠ .finished) (state : CoState) :
    Sound (w.setCo c { w.cos c with state := state }) :=
  hw.setCo rfl rfl (fun _ => rfl) (fun _ => hw.selfRc c hf) (fun hg => absurd (hw.ended_state c hg) hf) (hw.attached_lt c)

/-- A coroutine that is not executing is detached or attached. -/
theorem setHandler (hw : Sound w) (hc : ¬ w.Executing c) (hlt : c < w.coN) (handler : Option Nat) :
    Sound (w.setCo c { w.cos c with handler := handler }) :=
  hw.setCo rfl rfl (fun he => absurd he hc) (hw.selfRc c) (hw.ended_state c) (fun _ _ => hlt)

/-- The function of the coroutine that thread `t` runs is over. -/
theorem exiting (hw : Sound w) (ht : w.active t = .co c) (hf : (w.cos c).state = .finished) :
    Sound (w.setStage c (.exiting c)) := by
  have hstage : ∀ d, (w.setStage c (.exiting c)).stage d = if d = c then .exiting c else w.stage d := fun d =>
    Function.update_apply ..
  have hexec := hw.active_co t c ht
  have hhere := hw.active_here t
  rw [ht] at hhere
  have hbegun : Begun w c := by
    obtain ⟨S, prev, hS⟩ := hexec
    exact (hw.lent S c prev hS).2
  refine { hw with
    lent := ?lent, outside := ?outside, idle := ?idle, func := ?func, data := ?data, ended_state := ?ended_state,
    fresh := ?fresh }
  case lent =>
    intro X d prev hX
    refine ⟨(hw.lent X d prev hX).1, ?_⟩
    rw [Begun, hstage]
    split
    · rename_i hdc
      rw [hdc]
      exact .inr rfl
    · exact (hw.lent X d prev hX).2
  case outside =>
    intro X d hX
    obtain ⟨rfl, hg⟩ := hw.outside X d hX
    refine ⟨rfl, ?_⟩
    rw [hstage, if_neg, hg]
    rintro rfl
    have hout : (w.stack (.co d)).place = .jumpOut d := hX
    rw [hhere] at hout
    cases hout
  case idle =>
    intro d hX hd
    rw [hstage, if_neg]
    · exact hw.idle d hX hd
    · rintro rfl
      exact hd hexec
  case func =>
    intro d
    rw [hstage]
    split
    · rename_i hdc
      have hfunc := hw.func c
      rw [hdc]
      refine ⟨fun hb => ?_, fun hg => by cases hg⟩
      have hun := hfunc.1 hb
      rcases hbegun with hb | hb <;> rw [hb] at hun <;> cases hun
    · exact hw.func d
  case data =>
    intro d d' hg
    rw [hstage] at hg
    split at hg
    · rename_i hdc
      rcases hg with hg | hg <;> cases hg
      exact hdc.symm
    · exact hw.data d d' hg
  case ended_state =>
    intro d hg
    rw [hstage] at hg
    split at hg
    · rename_i hdc
      rw [hdc]
      exact hf
    · exact hw.ended_state d hg
  case fresh =>
    intro d hd
    rw [hstage, if_neg]
    · exact hw.fresh d hd
    · rintro rfl
      have hun := hw.fresh d hd
      rcases hbegun with hb | hb <;> rw [hb] at hun <;> cases hun

/-- **A new coroutine waits in its own context.** -/
theorem spawn (hw : Sound w) (h : Nat) : Sound (w.spawn h) := by
  have hun := hw.fresh w.coN (Nat.le_refl _)
  have hnot : ¬ w.Executing w.coN := by
    rintro ⟨S, prev, hS⟩
    rcases (hw.lent S w.coN prev hS).2 with hb | hb <;> rw [hb] at hun <;> cases hun
  have hcos : ∀ d, (w.spawn h).cos d =
      if d = w.coN then ⟨.ready, false, some (.co w.coN), true, some h, true⟩ else w.cos d := fun d =>
    Function.update_apply ..
  have hne : ∀ {d}, w.Executing d → d ≠ w.coN := by
    rintro d hd rfl
    exact hnot hd
  refine { hw with
    lent := ?lent, inLoop := ?inLoop, kept := ?kept, home := ?home, func := ?func, ended_state := ?ended_state, selfRc := ?selfRc,
    attached_lt := ?attached_lt, fresh := ?fresh }
  case lent =>
    intro X d prev hX
    rw [hcos, if_neg (hne ⟨X, prev, hX⟩)]
    exact hw.lent X d prev hX
  case inLoop =>
    intro X d prev hX
    rw [hcos, if_neg (hne ⟨X, prev, hX⟩)]
    exact hw.inLoop X d prev hX
  case kept =>
    intro h' X hX
    obtain ⟨d, prev, hp, hd⟩ := hw.kept h' X hX
    refine ⟨d, prev, hp, ?_⟩
    rw [hcos, if_neg (hne ⟨X, prev, hp⟩), hd]
  case home =>
    intro d hd
    rw [hcos]
    split
    · rename_i hdc
      rw [hdc]
    · exact hw.home d hd
  case func =>
    intro d
    rw [hcos]
    split
    · rename_i hdc
      rw [hdc]
      exact ⟨fun _ => hun, fun _ => rfl⟩
    · exact hw.func d
  case ended_state =>
    intro d hd
    rw [hcos]
    split
    · rename_i hdc
      have hold : w.stage d = .exiting d ∨ w.stage d = .ended := hd
      rw [hdc, hun] at hold
      rcases hold with hold | hold <;> cases hold
    · exact hw.ended_state d hd
  case selfRc =>
    intro d
    rw [hcos]
    split
    · exact fun _ => rfl
    · exact hw.selfRc d
  case attached_lt =>
    intro d h' hd
    rw [hcos] at hd
    split at hd
    · rename_i hdc
      rw [hdc]
      exact Nat.lt_succ_self _
    · exact Nat.lt_succ_of_lt (hw.attached_lt d h' hd)
  case fresh => exact fun d hd => hw.fresh d (Nat.le_of_succ_le hd)

/-- The event loops of the stack that thread `t` runs on change: one begins, or one ends. -/
theorem setLoops {l : List Nat} {n : Nat} (hw : Sound w)
    (hl : ∀ h ∈ l, h ∈ (w.stack (w.active t)).loops ∨ h = w.handlerN ∧ w.handlerN < n) (hn : w.handlerN ≤ n) :
    Sound { w.setLoops (w.active t) l with handlerN := n } := by
  have hplace : ∀ X, ((w.setLoops (w.active t) l).stack X).place = (w.stack X).place := by
    intro X
    simp only [World.setLoops, Function.update_apply]
    split
    · rename_i hX
      rw [hX]
    · rfl
  have hloops : ∀ X, ((w.setLoops (w.active t) l).stack X).loops =
      if X = w.active t then l else (w.stack X).loops := by
    intro X
    simp only [World.setLoops, Function.update_apply]
    split <;> rfl
  have hin : ∀ {h' X}, h' ∈ ((w.setLoops (w.active t) l).stack X).loops →
      h' ∈ (w.stack X).loops ∨ X = w.active t ∧ h' = w.handlerN ∧ w.handlerN < n := by
    intro h' X hX
    rw [hloops] at hX
    split at hX
    · rename_i ha
      rw [ha]
      exact (hl h' hX).imp_right fun h1 => ⟨rfl, h1⟩
    · exact .inl hX
  have hnew : ∀ {h' X}, h' ∈ (w.stack X).loops → h' ≠ w.handlerN := fun hX he =>
    Nat.lt_irrefl _ (he ▸ hw.loops_lt _ _ hX)
  have hexec : ∀ d, ({ w.setLoops (w.active t) l with handlerN := n } : World).Executing d ↔ w.Executing d := by
    intro d
    simp only [World.Executing, hplace]
  refine { hw with
    active_here := ?active_here, active_co := ?active_co, saved := ?saved, lent := ?lent, inLoop := ?inLoop,
    outside := ?outside, nested := ?nested, kept := ?kept, home := ?home, loops := ?loops, loops_lt := ?loops_lt,
    idle := ?idle }
  case active_here => exact fun t' => (hplace _).trans (hw.active_here t')
  case active_co => exact fun t' d hd => (hexec d).2 (hw.active_co t' d hd)
  case saved => exact fun X d prev hX => hw.saved X d prev ((hplace X).symm.trans hX)
  case lent => exact fun X d prev hX => hw.lent X d prev ((hplace X).symm.trans hX)
  case inLoop =>
    intro X d prev hX
    have hold := (hplace X).symm.trans hX
    obtain ⟨h', hl', hc', hctx⟩ := hw.inLoop X d prev hold
    refine ⟨h', ?_, hc', hctx⟩
    have hX : X ≠ w.active t := by
      rintro rfl
      rw [hw.active_here t] at hold
      cases hold
    exact (congrArg List.head? ((hloops X).trans (if_neg hX))).trans hl'
  case outside => exact fun X d hX => hw.outside X d ((hplace X).symm.trans hX)
  case nested => exact fun d d' prev hX => (hexec d).2 (hw.nested d d' prev ((hplace _).symm.trans hX))
  case kept =>
    intro h' X hX
    obtain ⟨d, prev, hp, hd⟩ := hw.kept h' X hX
    exact ⟨d, prev, (hplace X).trans hp, hd⟩
  case home => exact fun d hd => hw.home d fun he => hd ((hexec d).2 he)
  case loops =>
    intro h' X X' hX hX'
    rcases hin hX with h1 | ⟨h1, h1', -⟩ <;> rcases hin hX' with h2 | ⟨h2, h2', -⟩
    · exact hw.loops h' X X' h1 h2
    · exact absurd h2' (hnew h1)
    · exact absurd h1' (hnew h2)
    · rw [h1, h2]
  case loops_lt =>
    intro h' X hX
    rcases hin hX with h1 | ⟨-, h1, h2⟩
    · exact Nat.lt_of_lt_of_le (hw.loops_lt h' X h1) hn
    · rw [h1]
      exact h2
  case idle => exact fun d hX hd => hw.idle d ((hplace _).symm.trans hX) fun he => hd ((hexec d).2 he)

theorem start (hw : Sound w) (t : Nat) : Sound { (w.setLoops (w.active t)
    (w.handlerN :: (w.stack (w.active t)).loops)).setContext w.handlerN none with handlerN := w.handlerN + 1 } := by
  have hnone : w.contexts w.handlerN = none := by
    cases hctx : w.contexts w.handlerN with
    | none => rfl
    | some S =>
      obtain ⟨c, prev, hS, hc⟩ := hw.kept _ S hctx
      obtain ⟨h', hl, hh, -⟩ := hw.inLoop S c prev hS
      rw [hc] at hh
      cases hh
      exact absurd (hw.loops_lt _ S (List.mem_of_mem_head? hl)) (Nat.lt_irrefl _)
  have hsame := Function.update_eq_self w.handlerN w.contexts
  rw [hnone] at hsame
  have hsound := hw.setLoops (t := t) (l := w.handlerN :: (w.stack (w.active t)).loops) (n := w.handlerN + 1)
    (fun h' hh => (List.mem_cons.1 hh).symm.imp_right fun h1 => ⟨h1, Nat.lt_succ_self _⟩) (Nat.le_succ _)
  simp only [World.setContext, World.setLoops, hsame] at hsound ⊢
  exact hsound

theorem mine (hm : w.mine t c = true) : ∃ h, w.loop t = some h ∧ (w.cos c).handler = some h := by
  simp only [World.mine, Bool.and_eq_true, decide_eq_true_eq] at hm
  obtain ⟨h, hl⟩ := Option.isSome_iff_exists.1 hm.1
  exact ⟨h, hl, hm.2.trans hl⟩

/-- **`jump_in` from the event loop of the coroutine.** -/
theorem jumpIn (hw : Sound w) (hm : w.mine t c = true) : ∃ w', w.jumpIn t c = .ok w' ∧ Sound w' := by
  obtain ⟨h, hl, hc⟩ := mine hm
  by_cases hf : (w.cos c).state = .finished
  · refine ⟨w, ?_, hw⟩
    unfold World.jumpIn
    exact if_pos hf
  · exact ⟨_, hw.jumpIn_ok hl hc hf, hw.entered hl hc hf⟩

/-- The coroutine that `TL_CURRENT_COROUTINE` points to is the one that runs. -/
theorem active_of_tl (hw : Sound w) (ht : w.tl t = some c) : w.active t = .co c := by
  rw [hw.tl t] at ht
  cases ha : w.active t with
  | base t' =>
    rw [ha] at ht
    cases ht
  | co d =>
    rw [ha] at ht
    cases ht
    rfl

/-- **`jump_out` of a coroutine that has not ended.** -/
theorem switchOut (hw : Sound w) (ht : w.tl t = some c) (hf : (w.cos c).state ≠ .finished) (state : CoState) :
    ∃ w', w.switchOut t c state = .ok w' ∧ Sound w' := by
  have hset := hw.setState hf state
  have ha : (w.setCo c { w.cos c with state := state }).active t = .co c := hw.active_of_tl ht
  obtain ⟨h, S, he⟩ := hset.return_point ha
  have hg : (w.setCo c { w.cos c with state := state }).stage c = .running c := by
    rcases hset.begun he with hg | hg
    · exact hg
    · exact absurd (hw.ended_state c (.inl hg)) hf
  have hself : (w.setCo c { w.cos c with state := state }).cos c = { w.cos c with state := state } :=
    Function.update_self ..
  refine ⟨_, ?_, hset.returned he (.switch hg)⟩
  simp only [World.switchOut]
  rw [hself, if_pos (hw.selfRc c hf), ← hset.jumpOut_ok he hg]

/-- **The end of `coroutine_main_fn`.** -/
theorem finish (hw : Sound w) (ha : w.active t = .co c) : ∃ w', w.finish t c c = .ok w' ∧ Sound w' := by
  have htl : w.tl t = some c := by rw [hw.tl t, ha]; rfl
  obtain ⟨h, S, he⟩ := hw.return_point ha
  have hset : Sound (w.setCo c { w.cos c with state := .finished, selfRc := false }) :=
    hw.setCo rfl rfl (fun _ => rfl) (fun hne => absurd rfl hne) (fun _ => rfl) (hw.attached_lt c)
  refine ⟨_, ?_, hset.exiting (t := t) ha ?_⟩
  · simp only [World.finish, htl, World.handlerShared, he.handler]
    rfl
  · simp only [World.setCo, Function.update_self]

theorem act {a : Act} {r : Except Fault World} (hw : Sound w) (hok : unfinished w (t, a))
    (hst : w.act t a = some r) : ∃ w', r = .ok w' ∧ Sound w' := by
  cases a with
  | start =>
    cases hst
    exact ⟨_, rfl, hw.start t⟩
  | stop =>
    simp only [World.act] at hst
    split at hst
    · rename_i rest hl
      cases hst
      refine ⟨_, rfl, hw.setLoops (n := w.handlerN) (fun h' hh => .inl ?_) (Nat.le_refl _)⟩
      rw [hl]
      exact List.mem_cons_of_mem _ hh
    · cases hst
  | spawn =>
    obtain ⟨h, -, rfl⟩ := Option.map_eq_some_iff.1 hst
    exact ⟨_, rfl, hw.spawn h⟩
  | spawnChild =>
    obtain ⟨c, htl, rfl⟩ := Option.map_eq_some_iff.1 hst
    obtain ⟨h, S, he⟩ := hw.return_point (hw.active_of_tl htl)
    refine ⟨w.spawn h, ?_, hw.spawn h⟩
    simp only [World.handlerShared, he.handler]
    rfl
  | resume c =>
    simp only [World.act] at hst
    split at hst
    · rename_i hm
      cases hst
      exact hw.jumpIn hm
    · cases hst
  | kill c =>
    simp only [World.act] at hst
    split at hst
    · rename_i hm
      cases hst
      refine (hw.killed c).jumpIn ?_
      simp only [World.mine, World.loop, World.setCo, Function.update_self] at hm ⊢
      exact hm
    · cases hst
  | wake c =>
    simp only [World.act] at hst
    split at hst
    · rename_i hm
      cases hst
      refine ⟨_, rfl, hw.setState ?_ .ready⟩
      rcases hm.2 with hb | hy
      · rw [hb]
        exact fun he => by cases he
      · rw [hy]
        exact fun he => by cases he
    · cases hst
  | migrate c =>
    simp only [World.act] at hst
    split at hst
    · rename_i hm
      cases hst
      obtain ⟨h, hl, hc⟩ := mine hm
      exact ⟨_, rfl, hw.setHandler (hw.not_executing hl hc) (hw.attached_lt c h hc) none⟩
    · cases hst
  | reattach c =>
    simp only [World.act] at hst
    split at hst
    · rename_i hm
      cases hst
      refine ⟨_, rfl, hw.setHandler (fun he => ?_) hm.1 _⟩
      obtain ⟨S, prev, hS⟩ := he
      obtain ⟨h, -, hc, -⟩ := hw.inLoop S c prev hS
      rw [hm.2.1] at hc
      cases hc
    · cases hst
  | yieldNow =>
    obtain ⟨c, htl, rfl⟩ := Option.map_eq_some_iff.1 hst
    exact hw.switchOut htl (hok (.inl rfl) c htl) .yielding
  | block =>
    obtain ⟨c, htl, rfl⟩ := Option.map_eq_some_iff.1 hst
    exact hw.switchOut htl (hok (.inr rfl) c htl) .blocked
  | finish =>
    simp only [World.act] at hst
    split at hst
    · rename_i c ha hl
      split at hst
      · rename_i d hg
        cases hst
        cases hw.data c d (.inl hg)
        exact hw.finish ha
      · cases hst
    · cases hst
  | exit =>
    simp only [World.act] at hst
    split at hst
    · rename_i c ha hl
      split at hst
      · rename_i d hg
        cases hst
        cases hw.data c d (.inr hg)
        obtain ⟨h, S, he⟩ := hw.return_point ha
        exact ⟨_, hw.exit_ok he, hw.returned he (.last (hw.ended_state c (.inl hg)))⟩
      · cases hst
    · cases hst

theorem step {a : Nat × Act} {w' : World} (hw : Sound w) (hok : unfinished w a) (hst : w.step a = some w') :
    Sound w' := by
  simp only [World.step] at hst
  split at hst
  · obtain ⟨r, hr, hw'⟩ := Option.map_eq_some_iff.1 hst
    obtain ⟨w₁, rfl, hs⟩ := hw.act (t := a.1) (a := a.2) hok hr
    cases hw'
    exact hs
  · cases hst

theorem init : Sound World.start where
  fault := rfl
  active_here _ := rfl
  active_inj t t' h := by cases h; rfl
  active_co t c h := by cases h
  tl _ := rfl
  saved S c prev h := by cases h
  lent S c prev h := by cases h
  inLoop S c prev h := by cases h
  outside S c h := by cases h
  nested c d prev h := by cases h
  kept h S hS := by cases hS
  home _ _ := rfl
  loops h S S' hS := by cases hS
  loops_lt h S hS := by cases hS
  idle _ _ _ := .inl rfl
  func _ := ⟨fun _ => rfl, fun _ => rfl⟩
  data c d h := by rcases h with h | h <;> cases h
  ended_state c h := by rcases h with h | h <;> cases h
  selfRc _ _ := rfl
  attached_lt c h hc := by cases hc
  fresh _ _ := rfl

end Sound

theorem sound {w : World} (hw : switching.Reach unfinished w) : Sound w := by
  refine System.Reach.invariant Sound (fun w h0 => ?_) (fun w a w' h hok hst => h.step hok hst) hw
  cases (show w = World.start from h0)
  exact Sound.init

/-- **Contexts are handed on.**  While nobody yields or blocks in a coroutine that has ended: `HandlerShared.context`
is `Some` exactly while a coroutine of that event loop is executing, a coroutine that is not has its own context,
`TL_CURRENT_COROUTINE` is the coroutine on whose stack the thread is, a `jump_in` is left with the pointer it was
entered with, and no `unwrap` fails. -/
theorem contexts_handed_over {w : World} (hw : switching.Reach unfinished w) :
    (∀ h, (w.contexts h).isSome = true ↔ ∃ c, w.Executing c ∧ (w.cos c).handler = some h) ∧
    (∀ c, ¬ w.Executing c → (w.cos c).context = some (.co c)) ∧
    (∀ t, w.tl t = (w.active t).owner ∧ ∀ c, w.active t = .co c → w.Executing c) ∧
    (∀ S c prev, (w.stack S).place = .jumpIn c prev → prev = S.owner) ∧
    w.fault = none := by
  have hs := sound hw
  refine ⟨fun h => ⟨fun hsome => ?_, ?_⟩, hs.home, fun t => ⟨hs.tl t, hs.active_co t⟩, hs.saved, hs.fault⟩
  · obtain ⟨S, hS⟩ := Option.isSome_iff_exists.1 hsome
    obtain ⟨c, prev, hp, hc⟩ := hs.kept h S hS
    exact ⟨c, ⟨S, prev, hp⟩, hc⟩
  · rintro ⟨c, ⟨S, prev, hp⟩, hc⟩
    obtain ⟨h', -, hc', hctx⟩ := hs.inLoop S c prev hp
    rw [hc] at hc'
    cases hc'
    rw [hctx]
    rfl

/-- Coroutine 0 starts an instance of its own, whose first coroutine is coroutine 1. -/
def nestedStart : List (Nat × Act) :=
  [(0, .start), (0, .spawn), (0, .resume 0), (0, .yieldNow), (0, .wake 0), (0, .resume 0), (0, .start), (0, .spawn),
   (0, .resume 1)]

theorem contexts_handed_over_nested : ∃ w : World, w.tl 0 = some 1 ∧ w.contexts 0 = some (.base 0) ∧
    w.contexts 1 = some (.co 0) ∧ ∀ t, w.tl t = (w.active t).owner ∧ ∀ c, w.active t = .co c → w.Executing c := by
  have hsome : (switching.exec nestedStart World.start).any (fun w =>
      decide (w.tl 0 = some 1 ∧ w.contexts 0 = some (.base 0) ∧ w.contexts 1 = some (.co 0))) = true := by
    decide +kernel
  obtain ⟨w, hw, hand⟩ := (Option.any_eq_true _ _).1 hsome
  obtain ⟨htl, h0, h1⟩ := of_decide_eq_true hand
  have hr : switching.Reach unfinished w :=
    System.reach_exec nestedStart _ w (.init rfl) (by decide +kernel) hw
  exact ⟨w, htl, h0, h1, (contexts_handed_over hr).2.2.1⟩

/-- Coroutine 0 returns; the destructor of its exit status yields and catches the panic; then it is resumed. -/
def lateYield : List (Nat × Act) :=
  [(0, .start), (0, .spawn), (0, .resume 0), (0, .spawnChild), (0, .finish), (0, .yieldNow), (0, .exit), (0, .wake 0),
   (0, .resume 0)]

/-- **A coroutine that has ended is resumed**, and `HandlerShared.context` is `None` while it is. -/
theorem context_lost : ∃ w : World, switching.Reach System.anyStep w ∧ w.Executing 0 ∧ (w.cos 0).handler = some 0 ∧
    w.active 0 = .co 0 ∧ w.contexts 0 = none := by
  have hsome : (switching.exec lateYield World.start).any (fun w => decide ((w.stack (.base 0)).place = .jumpIn 0 none ∧
      (w.cos 0).handler = some 0 ∧ w.active 0 = .co 0 ∧ w.contexts 0 = none)) = true := by
    decide +kernel
  obtain ⟨w, hw, hand⟩ := (Option.any_eq_true _ _).1 hsome
  obtain ⟨hp, hc, ha, hctx⟩ := of_decide_eq_true hand
  have h0 : switching.Reach System.anyStep World.start := .init rfl
  exact ⟨w, System.reach_exec_of_forall lateYield _ w h0 (fun _ _ _ => trivial) hw, ⟨_, _, hp⟩, hc, ha, hctx⟩

end Mioco.Switching

import Mathlib.Data.Finset.Card
import Mioco.Completion
import Mioco.Frame
/-!
# What runs in a coroutine that has ended (src/coroutine.rs)

The exit status is sent after the coroutine is `Finished` and has left its slab and the count; a status that is refused
is dropped at once, by `let _ =`, in the coroutine's context.  `Afterlife` is an instance with the destructors that
run there; what their unwinding does to the thread is not followed.
-/
namespace Mioco

open Lib (System)

/-- What the destructor of an exit status does with mioco. -/
inductive DropAct
  | blockOn (src : Src) (rw : RW)
  | yieldNow
  | spawn (id : Nat)
  /-- it returns or unwinds -/
  | ends
deriving DecidableEq, Repr

inductive AfterAct (α : Type)
  | inst (a : Action α)
  /-- the destructor that runs on thread `t` goes on -/
  | destructor (t : Nat) (d : DropAct)
deriving DecidableEq, Repr

structure Afterlife (S : Sched) (w : Nat) (α : Type) where
  inst : Instance S w α
  /-- the coroutine in whose context thread `t` runs a destructor -/
  dropping : Nat → Option Nat
  /-- `self_rc` is `Some` -/
  selfRc : Nat → Bool
  /-- `self_rc.as_ref().unwrap()` on `None` -/
  unwraps : Nat

namespace Instance
variable {S : Sched} {w : Nat} {α : Type}

/-- The step is `exit_sender.send` of coroutine `c` on thread `t`, and its receiver is gone. -/
def refuses (s : Instance S w α) : Action α → Option (Nat × Nat × ExitStatus α)
  | .thread t .next =>
    match (s.threads t).pc with
    | .exec c _ (.exit _) =>
      match ((s.chans (.join c)).senders[0]? : Option (SenderPc w (ExitStatus α))) with
      | some (.sending v _) => if (s.chans (.join c)).receiver then none else some (t, c, v)
      | _ => none
    | _ => none
  | _ => none

/-- The coroutine whose function ends in the step. -/
def ending (s : Instance S w α) : Action α → Option Nat
  | .thread t (.user (.finish _)) =>
    match (s.threads t).pc with
    | .exec c _ .user => some c
    | _ => none
  | _ => none

end Instance

namespace Afterlife
variable {S : Sched} {w : Nat} {α : Type}

def start (S : Sched) (w : Nat) {α : Type} (bound : Nat → Option Nat) : Afterlife S w α :=
  ⟨.start S w bound, fun _ => none, fun _ => true, 0⟩

/-- The thread runs a destructor. -/
def busy (s : Afterlife S w α) : Action α → Bool
  | .thread t _ => (s.dropping t).isSome
  | _ => false

/-- A destructor in the context of coroutine `c`; `block_on` and `yield_now` set the state, then use `self_rc`. -/
def destructor (s : Afterlife S w α) (t c : Nat) : DropAct → Option (Afterlife S w α)
  | .blockOn src rw =>
    let co := s.inst.cos c
    let inst := { s.inst with srcs := Function.update s.inst.srcs src ⟨co.blockedOn.length, rw⟩ }
    if s.selfRc c then none
    else some { s with
      inst := inst.setCo c { co with state := .blocked, blockedOn := co.blockedOn ++ [src] }
      unwraps := s.unwraps + 1 }
  | .yieldNow =>
    if s.selfRc c then none
    else some { s with
      inst := s.inst.setCo c { s.inst.cos c with state := .yielding }
      unwraps := s.unwraps + 1 }
  | .spawn id =>
    let th := s.inst.threads t
    let co := s.inst.cos c
    let inst := { s.inst with coN := s.inst.coN + 1, coroutinesNum := s.inst.coroutinesNum + 1 }
    match (grown th.coroutines).insertAt id s.inst.coN with
    | some slab =>
      some { s with
        inst := ((inst.setCo c { co with children := co.children ++ [s.inst.coN] }).setCo s.inst.coN
          (Coroutine.new id (some t))).setThread t { th with coroutines := slab } }
    | none => none
  | .ends => some { s with dropping := Function.update s.dropping t none }

/-- `userDrop c v`: the destructor of `v`, as the exit status of `c`, runs code of the user. -/
def step (cfg : Config) (userDrop : Nat → ExitStatus α → Bool) (s : Afterlife S w α) :
    AfterAct α → Option (Afterlife S w α)
  | .inst a =>
    if s.busy a then none
    else (s.inst.step cfg a).map fun inst => { s with
      inst := inst
      dropping :=
        match s.inst.refuses a with
        | some (t, c, v) => if userDrop c v then Function.update s.dropping t (some c) else s.dropping
        | none => s.dropping
      selfRc :=
        match s.inst.ending a with
        | some c => Function.update s.selfRc c false
        | none => s.selfRc }
  | .destructor t d =>
    match s.dropping t with
    | some c => s.destructor t c d
    | none => none

/-- The code of the user runs in the context of a coroutine: its function, or a destructor. -/
inductive UserCode (s : Afterlife S w α) : AfterAct α → Nat → Prop
  | function {t c : Nat} {ret : Ret} (u : UserAct α) : (s.inst.threads t).pc = .exec c ret .user →
      UserCode s (.inst (.thread t (.user u))) c
  | destructor {t c : Nat} (d : DropAct) : s.dropping t = some c → UserCode s (.destructor t d) c

end Afterlife

/-- The runs of an instance whose exit statuses have destructors. -/
def afterlife (S : Sched) (w : Nat) (α : Type) (cfg : Config) (bound : Nat → Option Nat)
    (userDrop : Nat → ExitStatus α → Bool) : System (Afterlife S w α) (AfterAct α) where
  Init s := s = Afterlife.start S w bound
  step := Afterlife.step cfg userDrop

/-- An exit status whose destructor is the user's is only sent while its `JoinHandle` exists. -/
def statusHeard {S : Sched} {w : Nat} {α : Type} (userDrop : Nat → ExitStatus α → Bool) (s : Afterlife S w α) :
    AfterAct α → Prop
  | .inst i => (s.inst.refuses i).all (fun r => !userDrop r.2.1 r.2.2) = true
  | .destructor _ _ => True

instance {S : Sched} {w : Nat} {α : Type} (userDrop : Nat → ExitStatus α → Bool) (s : Afterlife S w α)
    (a : AfterAct α) : Decidable (statusHeard userDrop s a) :=
  match a with
  | .inst i => inferInstanceAs (Decidable ((s.inst.refuses i).all (fun r => !userDrop r.2.1 r.2.2) = true))
  | .destructor _ _ => inferInstanceAs (Decidable True)

/-- The destructor of an exit status that nobody hears does not use mioco. -/
def quietDrop {S : Sched} {w : Nat} {α : Type} (_ : Afterlife S w α) : AfterAct α → Prop
  | .inst _ => True
  | .destructor _ d => d = .ends

instance {S : Sched} {w : Nat} {α : Type} (s : Afterlife S w α) : (a : AfterAct α) → Decidable (quietDrop s a)
  | .inst _ => isTrue trivial
  | .destructor _ d => inferInstanceAs (Decidable (d = .ends))

/-! ## The live count, from below -/

namespace Instance
variable {S : Sched} {w : Nat} {α : Type} {s s' : Instance S w α} {t c : Nat} {cfg : Config} {a : Action α}

/-- The coroutines spawned, `coroutines_num` and the broadcasts of `Terminate`. -/
def counts (s : Instance S w α) : Nat × Nat × Nat := (s.coN, s.coroutinesNum, s.broadcasts)

theorem counts_of_world (h : s'.world = s.world) : s'.counts = s.counts :=
  congrArg (fun x => (x.2.2.2.2.1, x.2.2.2.2.2.1, x.2.2.2.2.2.2.1)) h

theorem counts_leave (ret : Ret) : (s.leave t c ret).counts = s.counts :=
  counts_of_world (leave_world _ _ _ _)

theorem counts_job {ret : Ret} {j : Job α} (h : s.job cfg t c ret j = some s') : s'.counts = s.counts := by
  cases j with
  | user => cases h
  | shutdown i =>
    simp only [job] at h
    split at h <;> cases h <;> rfl
  | terminate i res =>
    simp only [job] at h
    split at h
    · split at h <;> cases h <;> rfl
    · cases h
      rfl
  | propagate =>
    cases h
    rfl
  | exit res =>
    simp only [job, exit] at h
    split at h
    · cases h
    · cases h
      exact counts_of_world (leave_world _ _ _ _)
    · split at h
      · cases h
      · rename_i chan n _
        cases h
        cases n with
        | channelMsg l r =>
          simp only [notifyFrom]
          split <;> rfl
        | _ => rfl

theorem counts_deregister {next : AfterDeregister} : (s.deregister cfg t c next).counts = s.counts := by
  unfold deregister
  split
  · rename_i src rest _
    cases src with
    | recv ch => rfl
    | timer n => exact counts_of_world (clearTimeout_world _ _ _)
    | io n =>
      simp only [deregisterSrc]
      split <;> rfl
  · exact counts_of_world (afterDeregister_world _ _ _ _ _)

theorem counts_register {due : Bool} {slot tick : Nat} (h : s.register t due slot tick = some s') :
    s'.counts = s.counts := by
  simp only [register] at h
  split at h
  · split at h
    · cases h
      rfl
    · split at h
      · cases h
        rfl
      · split at h <;> cases h
        rfl
    · split at h <;> cases h <;> rfl
  · cases h

theorem counts_next (h : s.threadStep cfg t .next = some s') : s'.counts = s.counts := by
  simp only [threadStep] at h
  split at h
  case h_3 => exact counts_job h
  all_goals cases h
  · exact counts_of_world (deliverSpawned_flow _ _).world
  · exact counts_of_world (deliverReady_flow _ _ _).world
  · exact counts_of_world (registered_world _ _ _ _ _)
  · exact counts_deregister
  · exact counts_of_world (afterResume_world _ _ _ _)
  · exact counts_of_world (shutdownNext_flow _ _ ‹_›).world
  · exact counts_of_world (stopNext_flow _ _ ‹_›).world

/-- **Only a spawn and the end of a coroutine touch the count.** -/
theorem step_counts (h : s.step cfg a = some s')
    (hu : ∀ t u, a = .thread t (.user u) → (∀ id, u ≠ .spawn id) ∧ ∀ res, u ≠ .finish res) :
    s'.counts = s.counts := by
  cases a with
  | thread t a =>
    obtain ⟨-, -, h⟩ := step_thread h
    cases a with
    | start =>
      simp only [threadStep] at h
      split at h <;> cases h
      rfl
    | tick =>
      simp only [threadStep] at h
      split at h <;> cases h
      rfl
    | notify id =>
      simp only [threadStep] at h
      split at h
      · exact counts_of_world (notify_world _ _ h)
      · cases h
    | ready =>
      simp only [threadStep] at h
      split at h <;> cases h
      exact counts_of_world (ready_world _ _ _ _)
    | timeout slot =>
      simp only [threadStep] at h
      split at h <;> cases h
      exact counts_of_world (ready_world _ _ _ _)
    | stop =>
      simp only [threadStep] at h
      split at h <;> cases h
      rfl
    | sched choice =>
      simp only [threadStep, sched] at h
      split at h <;> cases h
      exact counts_of_world (command_flow _ _ _ _).world
    | register due slot tick => exact counts_register h
    | user u =>
      obtain ⟨hspawn, hfinish⟩ := hu t u rfl
      simp only [threadStep, user] at h
      split at h
      · rename_i c ret _
        cases u with
        | select l =>
          cases h
          exact counts_leave ret
        | yieldNow =>
          cases h
          exact counts_leave ret
        | spawn id => exact absurd rfl (hspawn id)
        | shutdown =>
          cases h
          rfl
        | finish res => exact absurd rfl (hfinish res)
      · cases h
    | next => exact counts_next h
  | sender n i a =>
    obtain ⟨chan, out, -, rfl | ⟨l, r, -, rfl⟩⟩ := senderStep_some h <;> rfl
  | receiver ch a =>
    obtain ⟨chan, taken, n, rfl, -⟩ := receiverStep_some h
    rfl
  | ioReady t n e =>
    obtain ⟨r, -, rfl⟩ := step_ioReady h
    rfl

/-! ## A coroutine ends once -/

theorem setCo_finished {co : Coroutine} (h : co.state = .finished ↔ (s.cos c).state = .finished) (c' : Nat) :
    ((s.setCo c co).cos c').state = .finished ↔ (s.cos c').state = .finished := by
  rw [cos_setCo]
  split
  · rename_i hc
    subst hc
    exact h
  · exact Iff.rfl

/-- **The state of a coroutine becomes `Finished` where its function ends, and stays so.** -/
theorem step_finished (h : Custody s) (hst : s.step cfg a = some s') (c : Nat) :
    ((s.cos c).state = .finished → (s'.cos c).state = .finished) ∧
      ((s'.cos c).state = .finished → (s.cos c).state = .finished ∨ s.ending a = some c) := by
  have hsame : ((s'.cos c).state = .finished ↔ (s.cos c).state = .finished) →
      ((s.cos c).state = .finished → (s'.cos c).state = .finished) ∧
        ((s'.cos c).state = .finished → (s.cos c).state = .finished ∨ s.ending a = some c) :=
    fun hiff => ⟨hiff.2, fun hf => .inl (hiff.1 hf)⟩
  cases step_kind h.engagement hst with
  | lands t a hl => exact hsame (hl.finished c)
  | switches t d ret u hpc hu hl => exact hsame (hl.finished c)
  | job t d ret j j' a hpc hj hq hpc' => exact hsame (hq.finished c)
  | spawn t d ret id slab hpc =>
    have hfresh := (h.fresh s.coN (Nat.le_refl _)).2.1
    refine hsame ?_
    rw [setThread_cos, cos_setCo]
    split
    · rename_i hc
      subst hc
      exact iff_of_false (fun hf => by cases hf) hfresh
    · refine setCo_finished ?_ c
      exact Iff.rfl
  | finish t d ret res hpc he hpc' =>
    rw [he.co, Function.update_apply]
    split
    · rename_i hc
      subst hc
      exact ⟨fun _ => rfl, fun _ => .inr (by simp only [ending, hpc])⟩
    · exact ⟨id, .inl⟩
  | exits t d ret res pc chan n a hpc hs hd hstep hm hq hpc' =>
    subst hm
    exact hsame (hq.finished c)
  | exited t d ret res a hpc hs hl => exact hsame (hl.finished c)
  | lost t d why a hfree hh hm hl hwhy hpc' =>
    subst hm
    refine hsame ((hl.finished c).trans (setCo_finished ?_ c))
    exact Iff.rfl
  | detach t d l k slab a hfree hh hm =>
    subst hm
    refine hsame (setCo_finished ?_ c)
    exact Iff.rfl
  | attach t d id slab rest a hin hpc =>
    refine hsame (setCo_finished ?_ c)
    exact Iff.rfl
  | outside hout hq hpc => exact hsame (hq.finished c)
  | receiver d a hcos hth hn hj hother hr => exact hsame (by rw [hcos])

/-- The coroutines whose function has not ended. -/
def unfinished (s : Instance S w α) : Finset Nat :=
  (Finset.range s.coN).filter fun c => (s.cos c).state ≠ .finished

theorem mem_unfinished : c ∈ s.unfinished ↔ c < s.coN ∧ (s.cos c).state ≠ .finished := by
  rw [unfinished, Finset.mem_filter, Finset.mem_range]

/-- **`coroutines_num` counts every unfinished coroutine, and `Terminate` is for when there is none.** -/
structure Numbered (s : Instance S w α) : Prop where
  count : s.unfinished.card ≤ s.coroutinesNum
  last : 0 < s.broadcasts → s.unfinished = ∅

/-- The code of a coroutine that runs is that of an unfinished one. -/
theorem running_unfinished (h : Custody s) {ret : Ret} (hpc : (s.threads t).pc = .exec c ret .user) :
    c ∈ s.unfinished := by
  have hin := h.engaged t c (some .user) (by rw [hpc]; rfl)
  exact mem_unfinished.2 ⟨h.lt_of_handler hin.attached, hin.live rfl⟩

theorem Numbered.spawn (h : Numbered s) (hc : Custody s) {id : Nat}
    (hst : s.step cfg (.thread t (.user (.spawn id))) = some s') : Numbered s' := by
  have hstays := fun c' => (step_finished hc hst c').1
  obtain ⟨-, -, hst⟩ := step_thread hst
  simp only [threadStep, user] at hst
  split at hst
  · rename_i c ret hpc
    have hrun := running_unfinished hc hpc
    split at hst
    · have hs' := Option.some.inj hst
      have hn : s'.coN = s.coN + 1 := by rw [← hs']; rfl
      have hnum : s'.coroutinesNum = s.coroutinesNum + 1 := by rw [← hs']; rfl
      have hb : s'.broadcasts = s.broadcasts := by rw [← hs']; rfl
      have hsub : s'.unfinished ⊆ insert s.coN s.unfinished := fun c' hc' => by
        obtain ⟨hlt, hlive⟩ := mem_unfinished.1 hc'
        rcases Nat.lt_succ_iff_lt_or_eq.1 (hn ▸ hlt) with hlt | heq
        · exact Finset.mem_insert_of_mem (mem_unfinished.2 ⟨hlt, fun hf => hlive (hstays c' hf)⟩)
        · exact heq ▸ Finset.mem_insert_self _ _
      constructor
      · rw [hnum]
        exact (Finset.card_le_card hsub).trans ((Finset.card_insert_le _ _).trans (Nat.succ_le_succ h.count))
      · intro hpos
        rw [h.last (hb ▸ hpos)] at hrun
        exact absurd hrun (Finset.notMem_empty c)
    · cases hst
  · cases hst

theorem finish_counts (s : Instance S w α) (cfg : Config) (t c : Nat) (ret : Ret) (res : ExitStatus α) :
    (s.finish cfg t c ret res).coN = s.coN ∧
    ((s.finish cfg t c ret res).cos c).state = .finished ∧ s.coroutinesNum - 1 ≤ (s.finish cfg t c ret res).coroutinesNum ∧
      (0 < (s.finish cfg t c ret res).broadcasts → 0 < s.broadcasts ∨ s.coroutinesNum = 1) := by
  have hco : ∀ co : Coroutine, co.state = .finished → ((s.setCo c co).cos c).state = .finished := by
    intro co hco
    rw [setCo_self, hco]
  simp only [finish]
  split
  · exact ⟨rfl, hco _ rfl, Nat.sub_le _ _, .inl⟩
  · refine ⟨rfl, hco _ rfl, Nat.le_refl _, fun hb => ?_⟩
    by_cases h1 : s.coroutinesNum = 1
    · exact .inr h1
    · refine .inl ?_
      simpa only [setThread, h1, if_false] using hb

theorem step_ending (hst : s.step cfg a = some s') (he : s.ending a = some c) : (s'.cos c).state = .finished := by
  unfold ending at he
  split at he
  · rename_i t res
    split at he
    · rename_i c' ret hpc
      cases he
      simp only [step, threadStep, user, hpc] at hst
      split at hst <;> cases hst
      exact (s.finish_counts cfg _ _ _ _).2.1
    · cases he
  · cases he

theorem Numbered.finish (h : Numbered s) (hc : Custody s) {res : ExitStatus α}
    (hst : s.step cfg (.thread t (.user (.finish res))) = some s') : Numbered s' := by
  have hstays := fun c' => (step_finished hc hst c').1
  obtain ⟨-, -, hst⟩ := step_thread hst
  simp only [threadStep, user] at hst
  split at hst
  · rename_i c ret hpc
    have hrun := running_unfinished hc hpc
    have hpos := Finset.card_pos.2 ⟨c, hrun⟩
    have hcount := h.count
    cases hst
    obtain ⟨hn, hfin, hnum, hb⟩ := s.finish_counts cfg t c ret res
    have hsub : (s.finish cfg t c ret res).unfinished ⊆ s.unfinished.erase c := fun c' hc' => by
      obtain ⟨hlt, hlive⟩ := mem_unfinished.1 hc'
      refine Finset.mem_erase.2 ⟨fun heq => hlive (heq ▸ hfin), mem_unfinished.2 ⟨hn ▸ hlt, fun hf => ?_⟩⟩
      exact hlive (hstays c' hf)
    have hcard := Finset.card_le_card hsub
    rw [Finset.card_erase_of_mem hrun] at hcard
    refine ⟨by omega, fun hlast => ?_⟩
    rcases hb hlast with hold | hone
    · rw [h.last hold] at hrun
      exact absurd hrun (Finset.notMem_empty c)
    · exact Finset.card_eq_zero.1 (by omega)
  · cases hst

theorem Numbered.step (h : Numbered s) (hc : Custody s) (hst : s.step cfg a = some s') : Numbered s' := by
  by_cases hspawn : ∃ t id, a = .thread t (.user (.spawn id))
  · obtain ⟨t, id, rfl⟩ := hspawn
    exact h.spawn hc hst
  · by_cases hfinish : ∃ t res, a = .thread t (.user (.finish res))
    · obtain ⟨t, res, rfl⟩ := hfinish
      exact h.finish hc hst
    · have hcounts : s'.counts = s.counts := by
        refine step_counts hst fun t u hu => ⟨fun id hid => hspawn ⟨t, id, ?_⟩, fun res hres => hfinish ⟨t, res, ?_⟩⟩
        · rw [hu, hid]
        · rw [hu, hres]
      obtain ⟨hn, hnum, hb⟩ : s'.coN = s.coN ∧ s'.coroutinesNum = s.coroutinesNum ∧ s'.broadcasts = s.broadcasts := by
        simpa only [counts, Prod.mk.injEq] using hcounts
      have hsub : s'.unfinished ⊆ s.unfinished := fun c hmem => by
        obtain ⟨hlt, hlive⟩ := mem_unfinished.1 hmem
        exact mem_unfinished.2 ⟨hn ▸ hlt, fun hf => hlive ((step_finished hc hst c).1 hf)⟩
      constructor
      · rw [hnum]
        exact (Finset.card_le_card hsub).trans h.count
      · intro hpos
        rw [hb] at hpos
        rw [h.last hpos] at hsub
        exact Finset.subset_empty.1 hsub

theorem Numbered.reach {bound : Nat → Option Nat} {ok : Instance S w α → Action α → Prop}
    (hs : (mioco S w α cfg bound).Reach ok s) : Numbered s := by
  refine hs.invariant_of Custody Numbered (fun _ h => Custody.reach h) ?_ (fun _ _ _ hc h _ hst _ => h.step hc hst)
  rintro s rfl
  refine ⟨(Finset.card_filter_le _ _).trans (Finset.card_range 1).le, fun hb => (Nat.lt_irrefl 0 hb).elim⟩

end Instance

/-! ## No user code after completion -/

namespace Afterlife
variable {S : Sched} {w : Nat} {α : Type} {cfg : Config} {bound : Nat → Option Nat}
  {userDrop : Nat → ExitStatus α → Bool} {s s' : Afterlife S w α}

/-- A quiet step is one of the instance, or none for it. -/
theorem step_inst {a : AfterAct α} (hok : quietDrop s a) (hst : s.step cfg userDrop a = some s') :
    (∃ i, a = .inst i ∧ s.inst.step cfg i = some s'.inst) ∨ (∃ t d, a = .destructor t d) ∧ s'.inst = s.inst := by
  cases a with
  | inst i =>
    simp only [Afterlife.step] at hst
    split at hst
    · cases hst
    · obtain ⟨inst, hinst, rfl⟩ := Option.map_eq_some_iff.1 hst
      exact .inl ⟨i, rfl, hinst⟩
  | destructor t d =>
    cases (show d = .ends from hok)
    simp only [Afterlife.step] at hst
    split at hst
    · cases hst
      exact .inr ⟨⟨t, .ends, rfl⟩, rfl⟩
    · cases hst

/-- **An instance is all there is** as long as the destructors do not use mioco. -/
theorem reach_inst {ok : Afterlife S w α → AfterAct α → Prop} {okInst : Instance S w α → Action α → Prop}
    (hquiet : ∀ s a, ok s a → quietDrop s a) (hok : ∀ s i, ok s (.inst i) → okInst s.inst i)
    (hs : (afterlife S w α cfg bound userDrop).Reach ok s) : (mioco S w α cfg bound).Reach okInst s.inst := by
  refine hs.map Afterlife.inst (fun s h0 => ?_) (fun s a s' _ ha hst => ?_)
  · cases (show s = start S w bound from h0)
    constructor
  · rcases step_inst (hquiet s a ha) hst with ⟨i, rfl, hinst⟩ | ⟨-, hsame⟩
    · exact .inr ⟨i, hok s i ha, hinst⟩
    · exact .inl hsame

/-- What runs keep in which every status with a destructor is heard. -/
structure Silent (s : Afterlife S w α) : Prop where
  custody : Instance.Custody s.inst
  numbered : Instance.Numbered s.inst
  dropping : ∀ t, s.dropping t = none
  selfRc : ∀ c, s.selfRc c = false → (s.inst.cos c).state = .finished
  unwraps : s.unwraps = 0

theorem Silent.step (h : Silent s) {a : AfterAct α} (hok : statusHeard userDrop s a)
    (hst : s.step cfg userDrop a = some s') : Silent s' := by
  cases a with
  | inst a =>
    simp only [Afterlife.step] at hst
    split at hst
    · cases hst
    · obtain ⟨inst, hinst, rfl⟩ := Option.map_eq_some_iff.1 hst
      refine ⟨h.custody.step hinst, h.numbered.step h.custody hinst, ?_, ?_, h.unwraps⟩
      · intro t
        cases href : s.inst.refuses a with
        | none => exact h.dropping t
        | some r =>
          have hquiet : userDrop r.2.1 r.2.2 = false := by
            simpa only [statusHeard, href, Option.all_some, Bool.not_eq_true'] using hok
          simp only [hquiet, Bool.false_eq_true, if_false]
          exact h.dropping t
      · intro c hc
        have hstays := (Instance.step_finished h.custody hinst c).1
        cases hend : s.inst.ending a with
        | none =>
          simp only [hend] at hc
          exact hstays (h.selfRc c hc)
        | some c' =>
          simp only [hend, Function.update_apply] at hc
          split at hc
          · rename_i hcc
            subst hcc
            exact Instance.step_ending hinst hend
          · exact hstays (h.selfRc c hc)
  | destructor t d =>
    simp only [Afterlife.step, h.dropping t] at hst
    cases hst

theorem silent (hs : (afterlife S w α cfg bound userDrop).Reach (statusHeard userDrop) s) : Silent s := by
  refine hs.invariant Silent ?_ (fun _ _ _ h hok hst => h.step hok hst)
  rintro s rfl
  have h0 : (mioco S w α cfg bound).Reach System.anyStep (.start S w bound) := .init rfl
  exact ⟨Instance.Custody.reach h0, Instance.Numbered.reach h0, fun _ => rfl, fun _ hc => (by cases hc), rfl⟩

/-- **No user code after completion**, in every run whose statuses are heard where they have a destructor: what runs is
the code of a coroutine that has its `self_rc`, whose function has not ended, and before `Terminate`; no blocking call
has found `self_rc` empty, and a coroutine that is `Finished` stays so. -/
theorem no_code_after_completion (hs : (afterlife S w α cfg bound userDrop).Reach (statusHeard userDrop) s)
    {a : AfterAct α} (hok : statusHeard userDrop s a) (hst : s.step cfg userDrop a = some s') :
    (∀ c, UserCode s a c → s.selfRc c = true ∧ (s.inst.cos c).state ≠ .finished ∧ s.inst.broadcasts = 0) ∧
      (∀ c, (s.inst.cos c).state = .finished → (s'.inst.cos c).state = .finished) ∧ s'.unwraps = 0 := by
  have h := silent hs
  refine ⟨fun c huser => ?_, fun c hc => ?_, (h.step hok hst).unwraps⟩
  · cases huser with
    | @function t c ret u hpc =>
      have hrun := Instance.running_unfinished h.custody hpc
      have hlive := (Instance.mem_unfinished.1 hrun).2
      refine ⟨?_, hlive, ?_⟩
      · rw [← Bool.not_eq_false]
        exact fun hself => hlive (h.selfRc c hself)
      · by_contra hb
        rw [h.numbered.last (Nat.pos_of_ne_zero hb)] at hrun
        exact absurd hrun (Finset.notMem_empty c)
    | @destructor t c d hd =>
      rw [h.dropping t] at hd
      cases hd
  · cases a with
    | inst a =>
      simp only [Afterlife.step] at hst
      split at hst
      · cases hst
      · obtain ⟨inst, hinst, rfl⟩ := Option.map_eq_some_iff.1 hst
        exact (Instance.step_finished h.custody hinst c).1 hc
    | destructor t d =>
      simp only [Afterlife.step, h.dropping t] at hst
      cases hst

/-- Coroutine 0 spawns coroutine 1 and returns; the next step is the `send` of its status. -/
def parentReturns : List (Action Unit) :=
  [.thread 0 .start, .thread 0 (.sched 0), .thread 0 .next, .thread 0 (.sched 0), .thread 0 (.user (.spawn 2)),
   .thread 0 (.user (.finish (.ok ()))), .thread 0 .next]

/-- Its status goes to whoever waits for it, with a destructor. -/
theorem no_code_after_completion_heard : ∃ (s s' : Afterlife fifo 64 Unit) (a : AfterAct Unit),
    s.step ⟨1, true⟩ (fun _ _ => true) a = some s' ∧ s'.unwraps = 0 ∧ (s'.inst.cos 0).state = .finished := by
  have hsome : ((afterlife fifo 64 Unit ⟨1, true⟩ (fun _ => none) (fun _ _ => true)).exec
      (parentReturns.map AfterAct.inst) (.start fifo 64 (fun _ => none))).any (fun s =>
        decide (statusHeard (fun _ _ => true) s (.inst (.thread 0 .next))) &&
          (decide ((s.inst.cos 0).state = .finished) &&
            (s.step ⟨1, true⟩ (fun _ _ => true) (.inst (.thread 0 .next))).isSome)) = true := by
    decide +kernel
  obtain ⟨s, hs, hand⟩ := (Option.any_eq_true _ _).1 hsome
  obtain ⟨hok, hand⟩ := Bool.and_eq_true_iff.1 hand
  obtain ⟨hfin, hst⟩ := Bool.and_eq_true_iff.1 hand
  obtain ⟨s', hst⟩ := Option.isSome_iff_exists.1 hst
  have hr : (afterlife fifo 64 Unit ⟨1, true⟩ (fun _ => none) (fun _ _ => true)).Reach
      (statusHeard fun _ _ => true) s :=
    System.reach_exec _ _ s (.init rfl) (by decide +kernel) hs
  obtain ⟨-, hstays, hzero⟩ := no_code_after_completion hr (of_decide_eq_true hok) hst
  exact ⟨s, s', _, hst, hzero, hstays 0 (of_decide_eq_true hfin)⟩

/-- The `JoinHandle` of coroutine 1 is dropped; it is the last one to return, and its status is refused. -/
def droppedHandle : List (Action Unit) :=
  parentReturns ++ [.receiver (.join 1) .dropReceiver] ++ List.replicate 10 (.thread 0 .next) ++
  [.thread 0 (.sched 0), .thread 0 .next, .thread 0 .next, .thread 0 (.sched 0), .thread 0 (.user (.finish (.ok ())))] ++
  List.replicate 4 (.thread 0 .next)

/-- The destructor of the status spawns a coroutine. -/
def droppedStatus : List (AfterAct Unit) := droppedHandle.map AfterAct.inst ++ [.destructor 0 (.spawn 1)]

/-- **A destructor runs in a coroutine that has ended**: the coroutine it spawned comes after `Terminate`, its
`yield_now` brings the state back from `Finished` and finds no `self_rc`. -/
theorem destructor_after_completion : ¬ ∀ (S : Sched) (cfg : Config) (bound : Nat → Option Nat)
    (userDrop : Nat → ExitStatus Unit → Bool) (s s' : Afterlife S 64 Unit) (a : AfterAct Unit),
      (afterlife S 64 Unit cfg bound userDrop).Reach System.anyStep s → s.step cfg userDrop a = some s' →
        (∀ c, UserCode s a c → s.selfRc c = true ∧ (s.inst.cos c).state ≠ .finished ∧ s.inst.broadcasts = 0) ∧
          (∀ c, (s.inst.cos c).state = .finished → (s'.inst.cos c).state = .finished) ∧ s'.unwraps = 0 := by
  intro hall
  have hsome : ((afterlife fifo 64 Unit ⟨1, true⟩ (fun _ => none) (fun _ _ => true)).exec droppedStatus
      (.start fifo 64 (fun _ => none))).any (fun s =>
        decide ((s.inst.cos 1).state = .finished ∧ s.selfRc 1 = false ∧ s.inst.broadcasts = 1 ∧
          s.inst.coroutinesNum = 1) &&
        (s.step ⟨1, true⟩ (fun _ _ => true) (.destructor 0 .yieldNow)).any (fun s' =>
          decide ((s'.inst.cos 1).state ≠ .finished))) = true := by
    decide +kernel
  obtain ⟨s, hs, hand⟩ := (Option.any_eq_true _ _).1 hsome
  obtain ⟨hfin, hafter⟩ := Bool.and_eq_true_iff.1 hand
  obtain ⟨s', hst, hback⟩ := (Option.any_eq_true _ _).1 hafter
  have hr : (afterlife fifo 64 Unit ⟨1, true⟩ (fun _ => none) (fun _ _ => true)).Reach System.anyStep s :=
    System.reach_exec_of_forall _ _ s (.init rfl) (fun _ _ _ => trivial) hs
  obtain ⟨-, hstays, -⟩ := hall fifo ⟨1, true⟩ _ _ s s' _ hr hst
  exact of_decide_eq_true hback (hstays 1 (of_decide_eq_true hfin).1)

end Afterlife
end Mioco

import Mioco.Completes
import Mioco.LiveCount
/-!
# One completion, with destructors (src/coroutine.rs, src/mod.rs)

`RecordedAfterlife` keeps the record of `Recorded` over an instance whose exit statuses have destructors.  As long as
these do not use mioco it is a recorded instance; a `yield_now` in one takes the state of the coroutine that has ended
back from `Finished`.
-/
namespace Mioco

open Lib (System)

structure RecordedAfterlife (S : Sched) (w : Nat) (α : Type) where
  life : Afterlife S w α
  endings : Nat → List (Ending α)
  sent : Nat → List (ExitStatus α)
  joined : Nat → List (ExitStatus α)

namespace RecordedAfterlife
variable {S : Sched} {w : Nat} {α : Type}

def start (S : Sched) (w : Nat) {α : Type} (bound : Nat → Option Nat) : RecordedAfterlife S w α :=
  ⟨.start S w bound, fun _ => [], fun _ => [], fun _ => []⟩

/-- The instance and the record. -/
def recorded (s : RecordedAfterlife S w α) : Recorded S w α := ⟨s.life.inst, s.endings, s.sent, s.joined⟩

/-- A destructor ends no function, and sends and receives no status. -/
def step (cfg : Config) (userDrop : Nat → ExitStatus α → Bool) (s : RecordedAfterlife S w α) (a : AfterAct α) :
    Option (RecordedAfterlife S w α) :=
  (s.life.step cfg userDrop a).map fun life =>
    match a with
    | .inst i =>
      { life := life
        endings := fun c => s.endings c ++ s.life.inst.endings i c
        sent := fun c => s.sent c ++
          (life.inst.chans (.join c)).queue.drop (s.life.inst.chans (.join c)).queue.length
        joined := fun c => s.joined c ++ s.life.inst.joins i c }
    | .destructor _ _ => { s with life := life }

end RecordedAfterlife

def recordedAfterlife (S : Sched) (w : Nat) (α : Type) (cfg : Config) (bound : Nat → Option Nat)
    (userDrop : Nat → ExitStatus α → Bool) : System (RecordedAfterlife S w α) (AfterAct α) where
  Init s := s = RecordedAfterlife.start S w bound
  step := RecordedAfterlife.step cfg userDrop

namespace RecordedAfterlife
variable {S : Sched} {w : Nat} {α : Type} {s : RecordedAfterlife S w α} {cfg : Config} {bound : Nat → Option Nat}
  {userDrop : Nat → ExitStatus α → Bool}

/-- User code neither blocks nor yields while it is being unwound, nor does it catch the kill. -/
def civil (s : RecordedAfterlife S w α) : AfterAct α → Prop
  | .inst a => s.recorded.civil a
  | .destructor _ _ => True

/-- And the destructor of an exit status that nobody hears does not use mioco. -/
def civilDrop (s : RecordedAfterlife S w α) (a : AfterAct α) : Prop := s.civil a ∧ quietDrop s.life a

/-- **The destructors apart, it is a recorded instance.** -/
theorem reach_recorded (h : (recordedAfterlife S w α cfg bound userDrop).Reach civilDrop s) :
    (Mioco.recorded S w α cfg bound).Reach Recorded.civil s.recorded := by
  refine h.map recorded (fun s h0 => ?_) (fun s a s' _ hok hst => ?_)
  · cases (show s = start S w bound from h0)
    constructor
  · obtain ⟨life, hlife, rfl⟩ := Option.map_eq_some_iff.1 hst
    rcases Afterlife.step_inst hok.2 hlife with ⟨i, rfl, hinst⟩ | ⟨⟨t, d, rfl⟩, hsame⟩
    · exact .inr ⟨i, hok.1, Option.map_eq_some_iff.2 ⟨life.inst, hinst, rfl⟩⟩
    · refine .inl ?_
      simp only [recorded, hsame]

/-- **Every coroutine completes at most once, a kill makes it complete, and `join` returns what its function did**, in
every run in which no destructor of a refused exit status uses mioco. -/
theorem completes_once (hcp : cfg.catchPanics = true)
    (h : (recordedAfterlife S w α cfg bound userDrop).Reach civilDrop s) : CompletesOnce s.recorded :=
  Recorded.completes hcp (reach_recorded h)

instance (s : RecordedAfterlife S w α) : (a : AfterAct α) → Decidable (s.civil a)
  | .inst a => inferInstanceAs (Decidable (s.recorded.civil a))
  | .destructor _ _ => isTrue trivial

instance (s : RecordedAfterlife S w α) (a : AfterAct α) : Decidable (civilDrop s a) :=
  inferInstanceAs (Decidable (_ ∧ _))

/-- Under `keeper`: coroutine 0 spawns coroutines 1 and 2, returns, and is joined; coroutine 2 calls `mioco::shutdown`,
and `Handler::shutdown` kills it, and coroutine 1, which never ran. -/
def returnsAndKilled : List (Action Unit) :=
  [.thread 0 .start, .thread 0 (.sched 0), .thread 0 .next, .thread 0 (.sched 0), .thread 0 (.user (.spawn 2)),
   .thread 0 (.user (.spawn 3)), .thread 0 (.user (.finish (.ok ())))] ++ List.replicate 11 (.thread 0 .next) ++
  [.receiver (.join 0) .recvOutside, .thread 0 (.sched 0), .thread 0 .next, .thread 0 .next, .thread 0 (.sched 0),
   .thread 0 .next, .thread 0 .next, .thread 0 (.sched 0), .thread 0 (.user .shutdown), .thread 0 .next,
   .thread 0 .next, .thread 0 (.user .yieldNow), .thread 0 .next, .thread 0 .next, .thread 0 (.sched 0),
   .thread 0 .next, .thread 0 (.sched 0), .thread 0 .next, .thread 0 .next, .thread 0 (.notify 0), .thread 0 .next,
   .thread 0 (.user (.finish .err))] ++ List.replicate 10 (.thread 0 .next) ++ [.thread 0 (.user (.finish .err))]

theorem completes_once_three : ∃ s : RecordedAfterlife keeper 64 Unit, s.endings 0 = [⟨.ok (), false⟩] ∧
    s.joined 0 = [.ok ()] ∧ s.endings 1 = [⟨.err, true⟩] ∧ s.life.inst.lastJump 1 = some .killedAtStart ∧
      s.endings 2 = [⟨.err, true⟩] ∧ s.life.inst.lastJump 2 = some .unwindStack ∧ CompletesOnce s.recorded := by
  have hsome : ((recordedAfterlife keeper 64 Unit ⟨1, true⟩ (fun _ => none) (fun _ _ => true)).exec
      (returnsAndKilled.map AfterAct.inst) (start keeper 64 (fun _ => none))).any (fun s =>
        decide (s.endings 0 = [⟨.ok (), false⟩] ∧ s.joined 0 = [.ok ()] ∧ s.endings 1 = [⟨.err, true⟩] ∧
          s.life.inst.lastJump 1 = some .killedAtStart ∧ s.endings 2 = [⟨.err, true⟩] ∧
            s.life.inst.lastJump 2 = some .unwindStack)) = true := by
    decide +kernel
  obtain ⟨s, hs, hand⟩ := (Option.any_eq_true _ _).1 hsome
  obtain ⟨h0, hj, h1, hnever, h2, hran⟩ := of_decide_eq_true hand
  have hr : (recordedAfterlife keeper 64 Unit ⟨1, true⟩ (fun _ => none) (fun _ _ => true)).Reach
      civilDrop s :=
    System.reach_exec (returnsAndKilled.map AfterAct.inst) _ s (.init rfl) (by decide +kernel) hs
  exact ⟨s, h0, hj, h1, hnever, h2, hran, completes_once rfl hr⟩

/-- **A completion is undone**: nobody hears of coroutine 1, and the destructor of its status calls `yield_now`. -/
theorem completion_undone : ¬ ∀ (S : Sched) (cfg : Config) (bound : Nat → Option Nat)
    (userDrop : Nat → ExitStatus Unit → Bool) (s : RecordedAfterlife S 64 Unit), cfg.catchPanics = true →
      (recordedAfterlife S 64 Unit cfg bound userDrop).Reach civil s → CompletesOnce s.recorded := by
  intro hall
  have hsome : ((recordedAfterlife fifo 64 Unit ⟨1, true⟩ (fun _ => none) (fun _ _ => true)).exec
      (Afterlife.droppedHandle.map AfterAct.inst ++ [.destructor 0 .yieldNow])
        (start fifo 64 (fun _ => none))).any (fun s =>
          decide (s.endings 1 = [⟨.ok (), false⟩] ∧ (s.life.inst.cos 1).state = .yielding)) = true := by
    decide +kernel
  obtain ⟨s, hs, hand⟩ := (Option.any_eq_true _ _).1 hsome
  obtain ⟨hend, hstate⟩ := of_decide_eq_true hand
  have hr : (recordedAfterlife fifo 64 Unit ⟨1, true⟩ (fun _ => none) (fun _ _ => true)).Reach civil s :=
    System.reach_exec _ _ s (.init rfl) (by decide +kernel) hs
  have hfin := ((hall fifo ⟨1, true⟩ _ _ s rfl hr).once 1).2.2
  have hnot : (s.life.inst.cos 1).state = .finished := hfin (by rw [show s.recorded.endings 1 = _ from hend]; simp)
  rw [hstate] at hnot
  cases hnot

end RecordedAfterlife
end Mioco

import Mioco.PoolRefines
/-!
# How `jump_in` goes on (src/coroutine.rs)

`jump_in` resumes a coroutine, unwinds its stack, or starts it to find that it was killed.  Which of the three it was
last is what the coroutine that runs is in for: the first, unless it is being killed.
-/
namespace Mioco

open Lib (System Slab)
open Pooling

namespace Instance
variable {S : Sched} {w : Nat} {α : Type} {s m s' : Instance S w α} {t c : Nat} {cfg : Config}
  {bound : Nat → Option Nat}

/-- A coroutine that runs is being killed if it was entered to be. -/
theorem running_killed {g : Nat → Nat} (hs : Sound (s.pool g)) {ret : Ret} {j : Job α}
    (hpc : (s.threads t).pc = .exec c ret j) (hj : j.live = true) : (s.cos c).killed = ret.kills := by
  have hfits := (hs.desk t).fits
  have hst : ((s.pool g).desks t).stage = .running c ret := by
    rw [stage_exec hpc, if_pos hj]
  rw [hst] at hfits
  exact hfits.1

/-- **A coroutine runs as `jump_in` let it.** -/
def Jumped (s : Instance S w α) : Prop := ∀ t c ret j, (s.threads t).pc = .exec c ret j → j.live = true →
  ∃ jump, s.lastJump c = some jump ∧ (jump = .resume ↔ ret.kills = false)

/-- The code of a coroutine comes before its end. -/
theorem JobStep.live {j j' : Job α} (h : JobStep cfg j j') (hj : j'.live = true) : j.live = true := by
  cases h with
  | shutdown | shutdownNext i | shutdownEnd i => rfl
  | terminateNext i res | propagate => cases hj
  | report i res =>
    cases res with
    | ok v => cases hj
    | err =>
      simp only [Config.report] at hj
      split at hj <;> cases hj

/-- Nobody is entered. -/
theorem Jumped.keep (h : Jumped s) (hpc : ∀ i, i ≠ t → (s'.threads i).pc = (s.threads i).pc)
    (hj : s'.lastJump = s.lastJump)
    (ht : ∀ c ret j, (s'.threads t).pc = .exec c ret j → j.live = true →
      ∃ j', (s.threads t).pc = .exec c ret j' ∧ j'.live = true) : Jumped s' := by
  intro i c ret j hp hl
  rw [hj]
  by_cases hi : i = t
  · subst hi
    obtain ⟨j', hp', hl'⟩ := ht c ret j hp hl
    exact h i c ret j' hp' hl'
  · rw [hpc i hi] at hp
    exact h i c ret j hp hl

/-- Control goes into a coroutine, or to where none runs. -/
theorem Jumped.lands (h : Jumped s) (hc : Custody s) (hl : Lands t s s')
    (hk : ∀ c ret j, (s'.threads t).pc = .exec c ret j → j.live = true → (s'.cos c).killed = ret.kills) : Jumped s' := by
  intro i c ret j hp hj
  by_cases hi : i = t
  · subst hi
    have heng : (s'.threads i).pc.engaged = some (c, some j) := by rw [hp]; rfl
    have huser : j = .user := by
      rcases (hl.enters c _ heng).2.2 with he | he <;> cases he
      rfl
    subst huser
    obtain ⟨jump, hjump, hres⟩ := hl.jump c heng
    refine ⟨jump, hjump, ?_⟩
    rw [hres, hk c ret _ hp hj]
  · rw [hl.pc i hi] at hp
    obtain ⟨jump, hjump, hres⟩ := h i c ret j hp hj
    refine ⟨jump, ?_, hres⟩
    rcases hl.jumped c with he | he
    · rw [he]
      exact hjump
    · -- it runs on its own thread only
      have h1 := (hl.enters c _ he).1
      rw [(hc.engaged i c (some j) (by rw [hp]; rfl)).attached] at h1
      cases h1
      exact (hi rfl).elim

theorem Jumped.step (h : Jumped s) (hc : Custody s) {a : Action α} (hst : s.step cfg a = some s')
    (hk : ∀ t c ret j, (s'.threads t).pc = .exec c ret j → j.live = true → (s'.cos c).killed = ret.kills) :
    Jumped s' := by
  have hsame : ∀ m : Instance S w α, m.threads = s.threads → m.lastJump = s.lastJump → Jumped m := by
    intro m hth hj i c ret j hp hl
    rw [hth] at hp
    rw [hj]
    exact h i c ret j hp hl
  cases step_kind hc.engagement hst with
  | lands t a hl => exact h.lands hc hl (hk t)
  | switches t d ret u hpc hu hl => exact h.lands hc hl (hk t)
  | job t d ret j j' a hpc hj hq hpc' =>
    refine h.keep hq.pc hq.lastJump (fun c ret' j₀ hp hl => ?_)
    rw [hpc'] at hp
    cases hp
    exact ⟨j, hpc, hj.live hl⟩
  | spawn t d ret id slab hpc =>
    refine h.keep (t := t) (fun i hi => congrArg Thread.pc (setThread_ne _ _ hi)) rfl (fun c ret' j hp hl => ?_)
    rw [setThread_self] at hp
    cases hp
    exact ⟨.user, hpc, rfl⟩
  | finish t d ret res hpc he hpc' =>
    refine h.keep he.pc he.lastJump (fun c ret' j hp hl => ?_)
    rcases hpc' with hp' | hp' | hp' <;> rw [hp'] at hp <;> cases hp
    · cases hl
    · have hno := (show JobStep cfg _ _ from .report 0 res).live hl
      cases hno
  | exits t d ret res pc chan n a hpc hs hd hstep hm hq hpc' =>
    subst hm
    refine h.keep hq.pc hq.lastJump (fun c ret' j hp hl => ?_)
    rcases hpc' with hp' | ⟨why, hp'⟩ <;> rw [hp'] at hp <;> cases hp
    cases hl
  | exited t d ret res a hpc hs hl => exact h.lands hc hl (hk t)
  | lost t d why a hfree hh hm hl hwhy hpc' =>
    subst hm
    refine h.keep (t := t) (fun i hi => hl.pc i hi) ?_ (fun c ret j hp _ => ?_)
    · funext x
      rcases hl.jumped x with he | he
      · exact he
      · rw [hpc'] at he
        cases he
    · rw [hp] at hpc'
      cases hpc'
  | detach t d l k slab a hfree hh hm =>
    subst hm
    refine h.keep (t := t) (fun i hi => ?_) rfl (fun c ret j hp _ => ?_)
    · rw [threads_send]
      show (Instance.threads _ i).pc = _
      rw [setThread_ne _ _ hi]
      rfl
    · rw [threads_send, setThread_self] at hp
      cases hp
  | attach t d id slab rest a hin hpc =>
    refine h.keep (t := t) (fun i hi => congrArg Thread.pc (setThread_ne _ _ hi)) rfl (fun c ret j hp _ => ?_)
    rw [setThread_self] at hp
    cases hp
  | outside hout hq hpc =>
    refine h.keep hq.pc hq.lastJump (fun c ret j hp hl => ?_)
    rw [hpc] at hp
    exact ⟨j, hp, hl⟩
  | receiver d a hcos hth hn hj hother hr => exact hsame _ hth hj

/-- **Whoever runs was resumed, if it is not being killed, and else entered by `unwind_stack` or before its first run.** -/
theorem jumped (h : (mioco S w α cfg bound).Reach (fun s a => s.unwinds a) s) : Jumped s := by
  refine h.invariant_of (fun s => Custody s ∧ ∃ g, Sound (s.pool g)) Jumped (fun s hr => ?_) (fun s hs => ?_)
    (fun s a s' hc hj hu hst hc' => ?_)
  · obtain ⟨g, hs, -⟩ := sound_reach hr
    exact ⟨.reach hr, g, hs⟩
  · cases (show s = Instance.start S w bound from hs)
    intro t c ret j hp
    have hstart : ((start S w bound : Instance S w α).threads t).pc = .starting := by
      simp only [start, Function.update_apply]
      split <;> rfl
    rw [hstart] at hp
    cases hp
  · obtain ⟨g, hs⟩ := hc'.2
    exact hj.step hc.1 hst (fun t c ret j hp hl => running_killed hs hp hl)

end Instance
end Mioco

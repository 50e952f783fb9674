import Mioco.PoolRefines
import Mioco.PoolReared
/-!
# Children come to the scheduler (src/coroutine.rs, src/thread.rs)

`Reckoned` is an instance with a count of the calls of `spawned`.  As long as no coroutine that is being killed leaves a
child to nobody, every child is given to the scheduler once, or killed, and a thread that shut down keeps none.
-/
namespace Mioco

open Lib (Slab System)
open Pooling

/-- An instance, and how often each coroutine was given to `spawned` of a scheduler. -/
structure Reckoned (S : Sched) (w : Nat) (α : Type) where
  inst : Instance S w α
  handed : Nat → Nat

namespace Reckoned
variable {S : Sched} {w : Nat} {α : Type}

def start (S : Sched) (w : Nat) {α : Type} (bound : Nat → Option Nat) : Reckoned S w α :=
  ⟨Instance.start S w bound, fun _ => 0⟩

def step (cfg : Config) (s : Reckoned S w α) (a : Action α) : Option (Reckoned S w α) :=
  (s.inst.step cfg a).map (fun inst => ⟨inst, s.inst.hands s.handed a⟩)

end Reckoned

def reckoned (S : Sched) (w : Nat) (α : Type) (cfg : Config) (bound : Nat → Option Nat) :
    System (Reckoned S w α) (Action α) where
  Init s := s = Reckoned.start S w bound
  step := Reckoned.step cfg

/-- The thread is in mio, or it is done with it: no callback and no coroutine is running. -/
def Pc.isOut {α : Type} : Pc α → Bool
  | poll | stopping | done => true
  | _ => false

namespace Instance
variable {S : Sched} {w : Nat} {α : Type}

/-- A child that is spawned by a coroutine while it is being killed is still ahead of `Handler::shutdown`. -/
def tends (s : Instance S w α) : Action α → Bool
  | .thread t (.user (.spawn id)) =>
    match (s.threads t).pc with
    | .exec _ ret .user => ret.tends id
    | _ => true
  | _ => true

/-- `after_resume` of coroutine `q` is ahead of thread `t`. -/
def startsNext (s : Instance S w α) (t q : Nat) : Prop := (Stage.ofPc (s.threads t).pc).resuming = some q

/-- Thread `t` is shutting down, and it has killed coroutine `c` or has it in its slab. -/
def killsNext (s : Instance S w α) (t c : Nat) : Prop :=
  (s.threads t).isShuttingDown = true ∧
    ((s.cos c).killed = true ∨ (s.threads t).coroutines.get (s.cos c).id = some c)

end Instance

/-- **No child is stranded.** -/
structure NoneStranded {S : Sched} {w : Nat} {α : Type} (s : Reckoned S w α) : Prop where
  once : ∀ c, s.handed c ≤ 1
  /-- given to the scheduler, or on its way to it -/
  known : ∀ c, c < s.inst.coN → s.handed c = 1 ∨ s.handed c = 0 ∧
    ((∃ t, c ∈ (s.inst.threads t).spawned.map Handle.co) ∨ ∃ q, c ∈ (s.inst.cos q).children)
  /-- a parent is about to start its children, or they are about to be killed -/
  ahead : ∀ q, ∀ c ∈ (s.inst.cos q).children, s.handed c = 0 ∧ ∃ t, (s.inst.cos q).handler = some t ∧
    (s.inst.startsNext t q ∨ s.inst.killsNext t c ∨ ∃ why, (s.inst.threads t).pc = .panicked why)
  delivered : ∀ t, (s.inst.threads t).pc.isOut = true → (s.inst.threads t).spawned = []
  /-- what only a dead parent refers to is dead -/
  settled : ∀ t, (s.inst.threads t).pc.isOut = true → ∀ q, (s.inst.cos q).handler = some t →
    ∀ c ∈ (s.inst.cos q).children, (s.inst.cos c).killed = true ∧ (s.inst.cos c).state = .finished
  /-- `Handler::shutdown` leaves nobody -/
  emptied : ∀ t, (s.inst.threads t).isShuttingDown = true → (s.inst.threads t).pc.isOut = true →
    ∀ id, (s.inst.threads t).coroutines.get id = none

namespace Pooling

theorem Pool.Path.reared {p p' : Pool} (h : Pool.Path (fun ret id => ret.tends id = true) p p') (hs : Sound p)
    (hr : Reared p) : Reared p' := by
  have hboth : Sound p' ∧ Reared p' := by
    induction h with
    | refl => exact ⟨hs, hr⟩
    | tail _ hst ih =>
      obtain ⟨t, hst⟩ := hst
      exact ⟨ih.1.step hst, ih.2.step ih.1 hst⟩
  exact hboth.2

theorem Reared.start {p : Pool} (hloose : p.Settled) (hcoN : p.coN = 1) (hkids : ∀ q, (p.fibers q).children = [])
    (hhanded : ∀ c, (p.fibers c).handed = 0) (hspawned : ∀ t, (p.desks t).spawned = if t = 0 then [0] else [])
    (hsd : ∀ t, (p.desks t).isShuttingDown = false) : Reared p := by
  have hne : ∀ t, (p.desks t).isShuttingDown ≠ true := fun t he => by rw [hsd] at he; cases he
  refine ⟨⟨fun c => if c = 0 then .queue 0 else .unborn, fun c => ?_, fun q c => ?_, fun t c => ?_, fun c => ?_⟩,
    fun t => ⟨fun q _ hk => (hk (hkids q)).elim, fun hs => (hne t hs).elim, fun hs => (hne t hs).elim⟩,
    hloose⟩
  · rw [hcoN]
    by_cases hc : c = 0
    · rw [if_pos hc, hc]
      simp
    · rw [if_neg hc]
      exact ⟨fun _ => Nat.one_le_iff_ne_zero.2 hc, fun _ => rfl⟩
  · rw [hkids, List.count_nil]
    by_cases hc : c = 0
    · rw [if_pos hc, if_neg (by simp)]
    · rw [if_neg hc, if_neg (by simp)]
  · rw [hspawned]
    by_cases hc : c = 0
    · rw [if_pos hc, hc]
      by_cases ht : t = 0
      · rw [if_pos ht, ht]
        rfl
      · rw [if_neg ht, if_neg (by simpa using Ne.symm ht)]
        rfl
    · rw [if_neg hc, if_neg (show Place.unborn ≠ Place.queue t by simp)]
      split
      · rw [List.count_singleton, if_neg (by simpa using Ne.symm hc)]
      · exact List.count_nil
  · rw [hhanded]
    by_cases hc : c = 0
    · rw [if_pos hc, if_neg (by simp)]
    · rw [if_neg hc, if_neg (by simp)]

end Pooling

namespace Reckoned
variable {S : Sched} {w : Nat} {α : Type} {cfg : Config} {bound : Nat → Option Nat} {s : Reckoned S w α}

/-- The step condition of this module: a coroutine that is being killed does not switch out, and tends its children. -/
def tending (s : Reckoned S w α) (a : Action α) : Prop := s.inst.unwinds a ∧ s.inst.tends a = true

theorem reach_inst {ok : Reckoned S w α → Action α → Prop} (h : (reckoned S w α cfg bound).Reach ok s) :
    (mioco S w α cfg bound).Reach System.anyStep s.inst := by
  refine h.map inst (fun s h0 => ?_) (fun s a s' _ _ hst => .inr ?_)
  · cases (show s = Reckoned.start S w bound from h0)
    constructor
  · obtain ⟨inst, hinst, rfl⟩ := Option.map_eq_some_iff.1 hst
    exact ⟨a, trivial, hinst⟩

theorem reared (h : (reckoned S w α cfg bound).Reach tending s) :
    Sound (s.inst.pool s.handed) ∧ Reared (s.inst.pool s.handed) := by
  refine h.invariant_of (fun s => Instance.Custody s.inst)
    (fun s => Sound (s.inst.pool s.handed) ∧ Reared (s.inst.pool s.handed))
    (fun _ hr => Instance.Custody.reach (reach_inst hr)) (fun s hs => ?_) (fun s a s' hc hi hok hst _ => ?_)
  · cases (show s = Reckoned.start S w bound from hs)
    refine ⟨Instance.sound_start S w α bound, .start (Instance.settled_start S w α bound) rfl (fun q => ?_)
      (fun _ => rfl) (fun t => ?_) (fun t => ?_)⟩
    · simp only [start, Instance.pool, Instance.start, Function.update_apply, Coroutine.fiber]
      split <;> rfl
    · simp only [start, Instance.pool, Instance.start, Function.update_apply, Thread.desk]
      split <;> rfl
    · simp only [start, Instance.pool, Instance.start, Function.update_apply, Thread.desk]
      split <;> rfl
  · obtain ⟨inst, hinst, rfl⟩ := Option.map_eq_some_iff.1 hst
    have hpath := Instance.step_path (g := s.handed) (fun ret id => ret.tends id = true) hc hok.1
      (fun t c ret id ha hpc => ?_) hinst
    · exact ⟨hpath.sound hi.1, hpath.reared hi.1 hi.2⟩
    · have htends := hok.2
      simp only [ha, Instance.tends, hpc] at htends
      exact htends

theorem isOut_stage {pc : Pc α} (h : pc.isOut = true) : (Stage.ofPc pc).idle = true ∧ (Stage.ofPc pc).resuming = none ∧
    (Stage.ofPc pc).runs = none ∧ (Stage.ofPc pc).attaching = none ∧ (Stage.ofPc pc).waving = none ∧
    Stage.ofPc pc ≠ .panicked false := by
  cases pc with
  | poll | stopping | done => exact ⟨rfl, rfl, rfl, rfl, rfl, by simp⟩
  | _ => cases h

/-- **Children are never stranded**, as long as no coroutine spawns while it is being killed, unless it is
`Handler::shutdown` that kills it and the child is still ahead of it. -/
theorem none_stranded (h : (reckoned S w α cfg bound).Reach tending s) : NoneStranded s := by
  obtain ⟨hs, ⟨place, hplace⟩, htended, hloose⟩ := reared h
  have hqueue : ∀ t c, c ∈ (s.inst.threads t).spawned.map Handle.co ↔ place c = .queue t := by
    intro t c
    have hcount := hplace.queue t c
    rw [← List.count_pos_iff, show (s.inst.threads t).spawned.map Handle.co = ((s.inst.pool s.handed).desks t).spawned from rfl,
      hcount]
    split <;> simp [*]
  have hchild : ∀ q c, c ∈ (s.inst.cos q).children ↔ place c = .child q := by
    intro q c
    have hcount := hplace.child q c
    rw [← List.count_pos_iff, show (s.inst.cos q).children = ((s.inst.pool s.handed).fibers q).children from rfl, hcount]
    split <;> simp [*]
  have hgiven : ∀ c, s.handed c = if place c = .given then 1 else 0 := hplace.given
  -- nobody is in the slab of a thread that shut down
  have hempty : ∀ t, (s.inst.threads t).isShuttingDown = true → (s.inst.threads t).pc.isOut = true →
      ∀ id, (s.inst.threads t).coroutines.get id = none := by
    intro t hsd hout id
    obtain ⟨-, -, hr, ha, hw, hp⟩ := isOut_stage hout
    by_contra hne
    obtain ⟨c, hg⟩ := Option.ne_none_iff_exists'.1 hne
    rcases (htended t).wave hsd hp id c hg with hx | hx | ⟨i, last, hx, -⟩
    · rw [show ((s.inst.pool s.handed).desks t).stage.runs = none from hr] at hx
      cases hx
    · rw [show ((s.inst.pool s.handed).desks t).stage.attaching = none from ha] at hx
      cases hx
    · rw [show ((s.inst.pool s.handed).desks t).stage.waving = none from hw] at hx
      cases hx
  refine ⟨fun c => ?_, fun c hc => ?_, fun q c hc => ⟨?_, ?_⟩, fun t hout => ?_, fun t hout q hq c hc => ?_, hempty⟩
  · rw [hgiven]
    split <;> omega
  · rw [hgiven]
    cases hp : place c with
    | unborn =>
      have hge : s.inst.coN ≤ c := (hplace.unborn c).1 hp
      omega
    | child q => exact .inr ⟨if_neg (by simp), .inr ⟨q, (hchild q c).2 hp⟩⟩
    | queue t => exact .inr ⟨if_neg (by simp), .inl ⟨t, (hqueue t c).2 hp⟩⟩
    | given => exact .inl (if_pos rfl)
  · rw [hgiven, (hchild q c).1 hc]
    exact if_neg (by simp)
  · cases hq : (s.inst.cos q).handler with
    | none =>
      have hnone : (s.inst.cos q).children = [] := (hloose q hq).children
      rw [hnone] at hc
      cases hc
    | some t =>
      refine ⟨t, rfl, ?_⟩
      rcases (htended t).brood q hq (List.ne_nil_of_mem hc) with hr | hr | hr
      · exact .inl hr
      · refine .inr (.inr ?_)
        have hstage : Stage.ofPc (s.inst.threads t).pc = .panicked false := hr
        cases hpc : (s.inst.threads t).pc with
        | panicked why => exact ⟨why, rfl⟩
        | exec c ret j =>
          rw [hpc, Stage.ofPc] at hstage
          split at hstage <;> cases hstage
        | _ =>
          rw [hpc] at hstage
          cases hstage
      · obtain ⟨hown, hk⟩ := (htended t).orphan hr q hq c hc
        exact .inr (.inl ⟨hr, hk.imp_right (fun hl => (hs.desk t).stored.placed c hown hl)⟩)
  · have hidle := ((hs.desk t).closing.idle (isOut_stage hout).1).1
    exact List.map_eq_nil_iff.1 hidle
  · obtain ⟨-, hres, -, -, -, hp⟩ := isOut_stage hout
    have hsd : (s.inst.threads t).isShuttingDown = true := by
      rcases (htended t).brood q hq (List.ne_nil_of_mem hc) with hr | hr | hr
      · rw [show ((s.inst.pool s.handed).desks t).stage.resuming = none from hres] at hr
        cases hr
      · exact (hp hr).elim
      · exact hr
    obtain ⟨hown, hk⟩ := (htended t).orphan hsd q hq c hc
    have hfin : (s.inst.cos c).state = .finished := by
      by_contra hl
      have hget : (s.inst.threads t).coroutines.get (s.inst.cos c).id = some c := (hs.desk t).stored.placed c hown hl
      rw [hempty t hsd hout] at hget
      cases hget
    exact ⟨hk.resolve_right (fun hl => hl hfin), hfin⟩

instance (s : Reckoned S w α) (a : Action α) : Decidable (tending s a) := inferInstanceAs (Decidable (_ ∧ _))

/-- Coroutine 0 spawns coroutine 1 and calls `mioco::shutdown`; coroutine 1 is started, and waits. -/
def childStarts : List (Action Unit) :=
  [.thread 0 .start, .thread 0 (.sched 0), .thread 0 .next, .thread 0 (.sched 0), .thread 0 (.user (.spawn 2)),
   .thread 0 (.user .shutdown), .thread 0 .next, .thread 0 .next, .thread 0 (.user .yieldNow),
   .thread 0 .next, .thread 0 .next, .thread 0 (.sched 0), .thread 0 .next, .thread 0 (.sched 0),
   .thread 0 .next, .thread 0 (.sched 0),
   .thread 0 (.user (.select [(.recv (.user 1), RW.ofRead)])), .thread 0 (.register false 0 0),
   .thread 0 .next, .thread 0 .next, .thread 0 (.sched 0), .thread 0 .next, .thread 0 .next, .thread 0 .next]

theorem none_stranded_started : ∃ s : Reckoned fifo 64 Unit, s.inst.coN = 2 ∧ s.handed 1 = 1 ∧
    (s.inst.threads 0).pc = .poll ∧ NoneStranded s := by
  have hsome : ((reckoned fifo 64 Unit ⟨1, true⟩ (fun _ => none)).exec childStarts (start fifo 64 (fun _ => none))).any
      (fun s => decide (s.inst.coN = 2 ∧ s.handed 1 = 1 ∧ (s.inst.threads 0).pc = .poll)) = true := by
    decide +kernel
  obtain ⟨s, hs, hand⟩ := (Option.any_eq_true _ _).1 hsome
  obtain ⟨hn, hhanded, hpc⟩ := of_decide_eq_true hand
  have h0 : (reckoned fifo 64 Unit ⟨1, true⟩ (fun _ => none)).Reach tending (start fifo 64 (fun _ => none)) := .init rfl
  have hr := System.reach_exec childStarts _ s h0 (by decide +kernel) hs
  exact ⟨s, hn, hhanded, hpc, none_stranded hr⟩

/-- Then `Handler::shutdown` kills coroutine 0, which frees its id, and coroutine 1, a destructor of which spawns a
coroutine that gets it. -/
def childInWave : List (Action Unit) :=
  childStarts ++ [.thread 0 (.notify 0), .thread 0 .next, .thread 0 (.user (.finish .err))] ++
    List.replicate 10 (.thread 0 .next) ++ [.thread 0 (.user (.spawn 1)), .thread 0 (.user (.finish .err))] ++
    List.replicate 10 (.thread 0 .next)

/-- **A child is stranded**: `Handler::shutdown` has returned, coroutine 2 is alive in the slab, and nobody but the dead
coroutine 1 refers to it. -/
theorem child_stranded : ¬ ∀ (S : Sched) (cfg : Config) (bound : Nat → Option Nat) (s : Reckoned S 64 Unit),
    (reckoned S 64 Unit cfg bound).Reach (fun s a => s.inst.unwinds a) s → NoneStranded s := by
  intro hall
  have hsome : ((reckoned fifo 64 Unit ⟨1, true⟩ (fun _ => none)).exec childInWave (start fifo 64 (fun _ => none))).any
      (fun s => decide ((s.inst.threads 0).pc = .poll ∧ (s.inst.threads 0).isShuttingDown = true ∧
        (s.inst.threads 0).coroutines.get 1 = some 2 ∧ (s.inst.cos 1).children = [2] ∧
          (s.inst.cos 1).state = .finished)) = true := by
    decide +kernel
  obtain ⟨s, hs, hand⟩ := (Option.any_eq_true _ _).1 hsome
  obtain ⟨hpc, hsd, hget, -, -⟩ := of_decide_eq_true hand
  have h0 : (reckoned fifo 64 Unit ⟨1, true⟩ (fun _ => none)).Reach (fun s a => s.inst.unwinds a)
      (start fifo 64 (fun _ => none)) := .init rfl
  have hr := System.reach_exec childInWave _ s h0 (by decide +kernel) hs
  have hempty := (hall fifo ⟨1, true⟩ _ s hr).emptied 0 hsd (by rw [hpc]; rfl) 1
  rw [hget] at hempty
  cases hempty

/-! ## Refinement -/

/-- **The runs of an instance are runs of its pool**, as long as a coroutine that is being killed does not switch out. -/
theorem refines_pool (h : (reckoned S w α cfg bound).Reach (fun s a => s.inst.unwinds a) s) :
    Pool.Path (fun _ _ => True) ((start S w bound : Reckoned S w α).inst.pool (fun _ => 0)) (s.inst.pool s.handed) := by
  refine h.invariant_of (fun s => Instance.Custody s.inst)
    (fun s => Pool.Path _ ((start S w bound : Reckoned S w α).inst.pool (fun _ => 0)) (s.inst.pool s.handed))
    (fun _ hr => Instance.Custody.reach (reach_inst hr)) (fun s hs => ?_) (fun s a s' hc hpath hok hst _ => ?_)
  · cases (show s = start S w bound from hs)
    exact .refl _ _
  · obtain ⟨inst, hinst, rfl⟩ := Option.map_eq_some_iff.1 hst
    exact hpath.trans (Instance.step_path (fun _ _ => True) hc hok (fun _ _ _ _ _ _ => trivial) hinst)

/-- Coroutine 0 is killed by `Handler::shutdown`; its child is one of the pool's, too. -/
theorem refines_pool_wave : ∃ s : Reckoned fifo 64 Unit, (s.inst.threads 0).isShuttingDown = true ∧
    Pool.Path (fun _ _ => True) ((start fifo 64 (fun _ => none) : Reckoned fifo 64 Unit).inst.pool (fun _ => 0))
      (s.inst.pool s.handed) := by
  have hsome : ((reckoned fifo 64 Unit ⟨1, true⟩ (fun _ => none)).exec childInWave (start fifo 64 (fun _ => none))).any
      (fun s => (s.inst.threads 0).isShuttingDown) = true := by
    decide +kernel
  obtain ⟨s, hs, hsd⟩ := (Option.any_eq_true _ _).1 hsome
  have h0 : (reckoned fifo 64 Unit ⟨1, true⟩ (fun _ => none)).Reach (fun s a => s.inst.unwinds a)
      (start fifo 64 (fun _ => none)) := .init rfl
  have hr := System.reach_exec childInWave _ s h0 (by decide +kernel) hs
  exact ⟨s, hsd, refines_pool hr⟩

end Reckoned
end Mioco

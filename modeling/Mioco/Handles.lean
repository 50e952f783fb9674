import Mioco.Edits
import Mioco.Peaceful
/-!
# Scheduling handles are conserved (src/mod.rs, src/thread.rs, src/coroutine.rs)

Before a shutdown every live coroutine of the default scheduler is the one its thread executes, or it is blocked and
there is no handle for it, or it is ready and there is one handle for it, and one only.
-/
namespace Mioco

open Lib (System Slab)
open Pooling

/-- A call of `mioco::shutdown`. -/
def Action.isShutdown {α : Type} : Action α → Bool
  | .thread _ (.user .shutdown) => true
  | _ => false

namespace Instance
variable {S : Sched} {w : Nat} {α : Type} {s s' : Instance S w α} {t c : Nat} {cfg : Config}

/-- The coroutine thread `t` executes, or is about to resume, to park, to wake or to send off. -/
def inHands (s : Instance S w α) (t : Nat) : Option Nat := (Stage.ofPc (s.threads t).pc).hand

/-- What the coroutine running on thread `t` has in `children_to_start`. -/
def starting (s : Instance S w α) (t : Nat) : List Nat :=
  ((Stage.ofPc (s.threads t).pc).resuming).elim [] (fun q => (s.cos q).children)

/-- The unhandled `CoroutineControl`s of coroutine `c` on thread `t`: with the scheduler, in the queues and in the
`Migration`s on their way; and those that its running coroutine has in `children_to_start`. -/
def controls (s : Instance S w α) (t c : Nat) : Nat :=
  let th := s.threads t
  (th.held.map Handle.co).count c + (th.spawned.map Handle.co).count c + (th.ready.map Handle.co).count c +
    (s.starting t).count c + th.carried c

/-! ## On the way from thread to thread -/

/-- Coroutine `c` is on its way to a thread, or the thread that was to send it has panicked. -/
def OnTheWay (s : Instance S w α) (c : Nat) : Prop :=
  (∃ t, 0 < (s.threads t).carried c) ∨ ∃ t why, (s.threads t).pc = .panicked why ∧
    (why = .slabRemove ∨ why = .noSuchThread c ∨ why = .notAttached c)

/-- **Whoever is attached to no thread is on its way to one.** -/
def Shipped (s : Instance S w α) : Prop := ∀ c < s.coN, (s.cos c).handler = none → s.OnTheWay c

theorem OnTheWay.keep (h : s.OnTheWay c) (hcar : ∀ i, (s.threads i).carried c ≤ (s'.threads i).carried c)
    (hp : ∀ i why, (s.threads i).pc = .panicked why → (s'.threads i).pc = .panicked why) : s'.OnTheWay c := by
  rcases h with ⟨i, hi⟩ | ⟨i, why, hi, hwhy⟩
  · exact .inl ⟨i, Nat.lt_of_lt_of_le hi (hcar i)⟩
  · exact .inr ⟨i, why, hp i why hi, hwhy⟩

/-- A thread that has panicked stays so. -/
theorem step_panicked {a : Action α} (hst : s.step cfg a = some s') {why : Panic}
    (hpc : (s.threads t).pc = .panicked why) : (s'.threads t).pc = .panicked why := by
  by_cases ha : ∃ b, a = .thread t b
  · obtain ⟨b, rfl⟩ := ha
    obtain ⟨-, -, hb⟩ := step_thread hst
    rw [threadStep_panicked (by rw [hpc]; rfl)] at hb
    cases hb
  · rw [(step_told (fun b hb => ha ⟨b, hb⟩) hst).pc]
    exact hpc

theorem Shipped.step (h : s.Shipped) (he : Engaged s) {a : Action α} (hst : s.step cfg a = some s') : s'.Shipped := by
  intro x hx hnone
  have hp : ∀ i why, (s.threads i).pc = .panicked why → (s'.threads i).pc = .panicked why :=
    fun i why => step_panicked hst
  -- it was attached to no thread before, and no `Migration` left a queue
  have hkeep : x < s.coN → (s.cos x).handler = none → (∀ i, (s.threads i).carried x ≤ (s'.threads i).carried x) →
      s'.OnTheWay x := fun hlt hh hcar => (h x hlt hh).keep hcar hp
  have hlands : ∀ t, Lands t s s' → s'.OnTheWay x := fun t hl =>
    hkeep (hl.coN ▸ hx) ((hl.handler x).symm.trans hnone) (fun i => (hl.carried i x).ge)
  have hquiet : ∀ t, Quiet t s s' → s'.OnTheWay x := fun t hq =>
    hkeep (hq.coN ▸ hx) ((hq.handler x).symm.trans hnone) (fun i => (hq.carried i x).ge)
  cases step_kind he hst with
  | lands t a hl hpan => exact hlands t hl
  | switches t c ret u hpc hu hl => exact hlands t hl
  | job t c ret j j' a hpc hj hq hpc' => exact hquiet t hq
  | spawn t c ret id slab hpc =>
    rw [setThread_cos, cos_setCo] at hnone
    split at hnone
    · cases hnone
    · rename_i hxn
      refine hkeep (Nat.lt_of_le_of_ne (Nat.lt_succ_iff.1 hx) hxn) ?_ (fun i => Nat.le_of_eq ?_)
      · rw [cos_setCo] at hnone
        split at hnone
        · rename_i hxc
          rw [hxc]
          exact hnone
        · exact hnone
      · rw [threads_setThread]
        split
        · rename_i hi
          rw [hi, Thread.carried, Thread.carried]
        · rfl
  | finish t c ret res hpc hends hpc' =>
    refine hkeep (hends.coN ▸ hx) ?_ (fun i => Nat.le_of_eq ?_)
    · rw [hends.co, Function.update_apply] at hnone
      split at hnone
      · rename_i hxc
        rw [hxc]
        exact hnone
      · exact hnone
    · rw [Thread.carried, Thread.carried, hends.inbox]
  | exits t c ret res pc chan n a hpc hs hd hstep hm hq hpc' =>
    subst hm
    exact hkeep (hq.coN ▸ hx) ((hq.handler x).symm.trans hnone) (fun i => (hq.carried i x).ge)
  | exited t c ret res a hpc hs hl => exact hlands t hl
  | lost t c why a hfree hh hm hl hwhy hpc' =>
    subst hm
    by_cases hxc : x = c
    · exact .inr ⟨t, why, hpc', hxc ▸ hwhy⟩
    · refine hkeep (hl.coN ▸ hx) ?_ (fun i => (hl.carried i x).ge)
      rw [hl.handler, setCo_ne _ _ hxc] at hnone
      exact hnone
  | detach t c l k slab a hfree hh hm =>
    subst hm
    by_cases hxc : x = c
    · refine .inl ⟨l, ?_⟩
      rw [carried_send, if_pos ⟨rfl, hxc⟩]
      exact Nat.succ_pos _
    · refine hkeep hx ?_ (fun i => ?_)
      · rw [send_cos, setThread_cos, setCo_ne _ _ hxc] at hnone
        exact hnone
      · rw [carried_send, threads_setThread]
        refine Nat.le_add_right_of_le (Nat.le_of_eq ?_)
        split
        · rename_i hi
          rw [hi, Thread.carried, Thread.carried]
        · rfl
  | attach t c id slab rest a hin hpc =>
    rw [setThread_cos, cos_setCo] at hnone
    split at hnone
    · cases hnone
    · rename_i hxc
      refine hkeep hx hnone (fun i => Nat.le_of_eq ?_)
      rw [threads_setThread]
      split
      · rename_i hi
        rw [hi, Thread.carried, Thread.carried, hin, List.countP_cons,
          if_neg (by simp [Message.carries, Ne.symm hxc]), Nat.add_zero]
      · rfl
  | outside hout hq hpc => exact hquiet 0 hq
  | receiver c a hcos hth hn hj hother hr =>
    refine hkeep (hn ▸ hx) ?_ (fun i => Nat.le_of_eq ?_)
    · rw [← hcos]
      exact hnone
    · rw [hth]

theorem shipped_start (bound : Nat → Option Nat) : (start S w bound : Instance S w α).Shipped := by
  intro c hc hh
  have hc0 : c = 0 := Nat.lt_one_iff.1 hc
  subst hc0
  cases hh

/-! ## The handles -/

/-- **The situations of a live coroutine.** -/
inductive Situation (s : Instance S w α) (c : Nat) : Prop
  | executing (t : Nat) : s.inHands t = some c → (∀ i, s.inHands i = some c → i = t) → (∀ i, s.controls i c = 0) →
      Situation s c
  | blocked (t : Nat) : (s.cos c).state = .blocked → (s.cos c).handler = some t →
      (s.threads t).coroutines.get (s.cos c).id = some c → (∀ i, s.inHands i ≠ some c) → (∀ i, s.controls i c = 0) →
      Situation s c
  | ready (t : Nat) : (s.cos c).state = .ready → s.controls t c = 1 → (∀ i, i ≠ t → s.controls i c = 0) →
      (∀ i, s.inHands i ≠ some c) → Situation s c
  /-- its thread has panicked -/
  | lost (t : Nat) (why : Panic) : (s.threads t).pc = .panicked why → (s.cos c).handler = some t → Situation s c
  /-- the thread that was to send it to another has panicked in `migrate`, with its `Migration` -/
  | dropped (t : Nat) : (s.threads t).pc = .panicked (.noSuchThread c) ∨ (s.threads t).pc = .panicked (.notAttached c) →
      (s.cos c).handler = none → Situation s c

/-- **Every live coroutine is in one of the situations**, and there are no handles of others. -/
structure Conserved (s : Instance S w α) : Prop where
  situation : ∀ c < s.coN, (s.cos c).state ≠ .finished → Situation s c
  /-- whoever is resumed is ready -/
  handle : ∀ t c, 0 < s.controls t c → c < s.coN ∧ (s.cos c).state = .ready ∧ s.controls t c = 1 ∧
    (∀ i, i ≠ t → s.controls i c = 0) ∧ ∀ i, s.inHands i ≠ some c
  /-- `children_to_start` is not left behind -/
  children : ∀ q, (s.cos q).children ≠ [] → ∃ t, (s.cos q).handler = some t ∧
    ((Stage.ofPc (s.threads t).pc).resuming = some q ∨ ∃ why, (s.threads t).pc = .panicked why)

theorem carried_count (l : List Message) (c : Nat) :
    l.countP (Message.carries c) = (l.filterMap Message.migrant).count c := by
  induction l with
  | nil => rfl
  | cons m l ih =>
    rw [List.countP_cons, ih]
    cases m with
    | migration x =>
      rw [List.filterMap_cons, Message.migrant, List.count_cons]
      simp only [Message.carries, decide_eq_true_eq, beq_iff_eq]
    | _ => rfl

theorem controls_eq (s : Instance S w α) (g : Nat → Nat) (t c : Nat) :
    s.controls t c = (s.pool g).waiting t c + ((s.pool g).desks t).moving.count c := by
  have hcar : (s.threads t).carried c = ((s.pool g).desks t).moving.count c := carried_count _ c
  rw [controls, hcar]
  rfl

section
variable {g : Nat → Nat}

theorem own_of_inHands (hs : Sound (s.pool g)) (h : s.inHands t = some c) : (s.cos c).handler = some t :=
  (hs.desk t).handled.hand h

theorem own_of_waiting (hs : Sound (s.pool g)) (h : 0 < (s.pool g).waiting t c) : (s.cos c).handler = some t :=
  (hs.desk t).handled.own c (by omega)

/-- On the way to a thread: attached to none. -/
theorem moving_loose (hs : Sound (s.pool g)) (h : 0 < ((s.pool g).desks t).moving.count c) :
    (s.cos c).handler = none ∧ (s.cos c).state = .ready ∧ c < s.coN := by
  obtain ⟨hl, hlt⟩ := hs.moving t c (List.count_pos_iff.1 h)
  exact ⟨hl.handler, hl.state, hlt⟩

/-- A coroutine that is attached to thread `t` has its handles there. -/
theorem controls_attached (hs : Sound (s.pool g)) (hh : (s.cos c).handler = some t) (i : Nat) :
    s.controls i c = if i = t then (s.pool g).waiting t c else 0 := by
  have hmov : ((s.pool g).desks i).moving.count c = 0 := by
    by_contra hne
    have hloose := (moving_loose hs (Nat.pos_of_ne_zero hne)).1
    rw [hh] at hloose
    cases hloose
  rw [controls_eq s g, hmov, Nat.add_zero]
  split
  · rename_i hi
    rw [hi]
  · rename_i hi
    by_contra hne
    have hown := own_of_waiting hs (Nat.pos_of_ne_zero hne)
    rw [hh] at hown
    exact hi (Option.some.inj hown).symm

/-- One that is on its way to thread `t` has only that handle. -/
theorem controls_moving (hs : Sound (s.pool g)) (hc : c ∈ ((s.pool g).desks t).moving) (i : Nat) :
    s.controls i c = if i = t then 1 else 0 := by
  have hnone := (moving_loose hs (List.count_pos_iff.2 hc)).1
  have hwait : (s.pool g).waiting i c = 0 := by
    by_contra hne
    have hown := own_of_waiting hs (Nat.pos_of_ne_zero hne)
    rw [hnone] at hown
    cases hown
  rw [controls_eq s g, hwait, Nat.zero_add]
  split
  · rename_i hi
    rw [hi]
    exact List.count_eq_one_of_mem (hs.nodup t) hc
  · rename_i hi
    refine List.count_eq_zero.2 (fun hin => hi ?_)
    exact hs.apart i t c hin hc

theorem not_inHands (hs : Sound (s.pool g)) (hh : (s.cos c).handler = none) (i : Nat) : s.inHands i ≠ some c := by
  intro hi
  have hown := own_of_inHands hs hi
  rw [hh] at hown
  cases hown

theorem inHands_own (hs : Sound (s.pool g)) (hh : (s.cos c).handler = some t) {i : Nat} (hi : s.inHands i = some c) :
    i = t := by
  have hown := own_of_inHands hs hi
  rw [hh] at hown
  exact (Option.some.inj hown).symm

theorem panicked_of_stage {b : Bool} (hst : ((s.pool g).desks t).stage = .panicked b) :
    ∃ why, (s.threads t).pc = .panicked why := by
  cases hpc : (s.threads t).pc with
  | panicked why => exact ⟨why, rfl⟩
  | exec c ret j =>
    rw [stage_pool hpc, Stage.ofPc] at hst
    split at hst <;> cases hst
  | _ =>
    rw [stage_pool hpc] at hst
    simp at hst

/-- A coroutine of no thread is on its way to one, or it was dropped on the way. -/
theorem situation_unattached (hs : Sound (s.pool g)) (hship : s.OnTheWay c) (hh : (s.cos c).handler = none) :
    Situation s c := by
  rcases hship with ⟨t, hin⟩ | ⟨t, why, hpc, hwhy⟩
  · have hpos : 0 < ((s.pool g).desks t).moving.count c := by
      have hcar : (s.threads t).carried c = ((s.pool g).desks t).moving.count c := carried_count _ c
      rwa [← hcar]
    have hctl := controls_moving hs (List.count_pos_iff.1 hpos)
    refine .ready t (moving_loose hs hpos).2.1 ?_ (fun i hi => ?_) (not_inHands hs hh)
    · rw [hctl, if_pos rfl]
    · rw [hctl, if_neg hi]
  · refine .dropped t ?_ hh
    rcases hwhy with rfl | rfl | rfl
    · refine ((hs.desk t).noStray ?_).elim
      rw [stage_pool hpc, Stage.ofPc, Panic.isStray]
    · exact .inl hpc
    · exact .inr hpc

/-- A coroutine of a thread is in its hands, or has one handle there, or none and waits for an event. -/
theorem situation_attached (hs : Sound (s.pool g)) (hsd : ((s.pool g).desks t).isShuttingDown = false)
    (hlive : ∀ c, ((s.pool g).fibers c).killed ≠ true) (hh : (s.cos c).handler = some t)
    (hfin : (s.cos c).state ≠ .finished) : Situation s c := by
  have hctl := controls_attached hs hh
  by_cases hst : ((s.pool g).desks t).stage = .panicked false
  · obtain ⟨why, hpc⟩ := panicked_of_stage hst
    exact .lost t why hpc hh
  have honce := (hs.desk t).handled.once hsd c
  by_cases hhand : s.inHands t = some c
  · -- the handle it was resumed, woken or moved by has been handled
    have hin : ((s.pool g).desks t).stage.inHand c = 1 := Stage.inHand_of_hand hhand
    refine .executing t hhand (fun i hi => inHands_own hs hh hi) (fun i => ?_)
    rw [hctl]
    split <;> omega
  have hall : ∀ i, s.inHands i ≠ some c := fun i hi => hhand (inHands_own hs hh hi ▸ hi)
  have hin : ((s.pool g).desks t).stage.inHand c = 0 := if_neg hhand
  by_cases hwait : 0 < (s.pool g).waiting t c
  · refine .ready t ((hs.desk t).handled.fit hsd c hwait).1 ?_ (fun i hi => ?_) hall
    · rw [hctl, if_pos rfl]
      omega
    · rw [hctl, if_neg hi]
  · rcases (hs.desk t).kin.cover hsd hst c hh hfin with hb | hpos | ⟨q, -, hk, -⟩
    · refine .blocked t hb hh ((hs.desk t).stored.placed c hh hfin) hall (fun i => ?_)
      rw [hctl]
      split <;> omega
    · omega
    · exact (hlive q hk).elim

/-- A handle is the only one, of a ready coroutine that no thread is busy with. -/
theorem handle_alone (hs : Sound (s.pool g)) (hsd : ((s.pool g).desks t).isShuttingDown = false)
    (hpos : 0 < s.controls t c) : c < s.coN ∧ (s.cos c).state = .ready ∧ s.controls t c = 1 ∧
      (∀ i, i ≠ t → s.controls i c = 0) ∧ ∀ i, s.inHands i ≠ some c := by
  cases hh : (s.cos c).handler with
  | none =>
    have hmov : 0 < ((s.pool g).desks t).moving.count c := by
      by_contra hno
      rw [controls_eq s g] at hpos
      have hown := own_of_waiting hs (show 0 < (s.pool g).waiting t c by omega)
      rw [hh] at hown
      cases hown
    obtain ⟨-, hready, hlt⟩ := moving_loose hs hmov
    have hctl := controls_moving hs (List.count_pos_iff.1 hmov)
    refine ⟨hlt, hready, ?_, fun i hi => ?_, not_inHands hs hh⟩
    · rw [hctl, if_pos rfl]
    · rw [hctl, if_neg hi]
  | some t' =>
    have hctl := controls_attached hs hh
    rw [hctl] at hpos
    split at hpos
    · rename_i ht
      subst ht
      have honce := (hs.desk t).handled.once hsd c
      refine ⟨hs.lt_coN hh, ((hs.desk t).handled.fit hsd c hpos).1, ?_, fun i hi => ?_, fun i hi => ?_⟩
      · rw [hctl, if_pos rfl]
        omega
      · rw [hctl, if_neg hi]
      · cases inHands_own hs hh hi
        have hin : ((s.pool g).desks t).stage.inHand c = 1 := Stage.inHand_of_hand hi
        omega
    · omega

/-- In a sound pool where nobody was killed. -/
theorem conserved_of (hs : Sound (s.pool g)) (hl : (s.pool g).Settled) (hship : s.Shipped)
    {late : Bool} (hp : Peaceful true late s) : Conserved s := by
  have hsd : ∀ t, ((s.pool g).desks t).isShuttingDown = false := fun t => (hp.threads t).isShuttingDown rfl
  have hlive : ∀ c, ((s.pool g).fibers c).killed ≠ true := fun c hk => by
    have hnot : ((s.pool g).fibers c).killed = false := hp.killed rfl c
    rw [hk] at hnot
    cases hnot
  refine ⟨fun c hc hfin => ?_, fun t c hpos => handle_alone hs (hsd t) hpos, fun q hq => ?_⟩
  · cases hh : (s.cos c).handler with
    | none => exact situation_unattached hs (hship c hc hh) hh
    | some t => exact situation_attached hs (hsd t) hlive hh hfin
  · cases hh : (s.cos q).handler with
    | none => exact (hq (hl q hh).children).elim
    | some t =>
      refine ⟨t, rfl, ?_⟩
      rcases (hs.desk t).kin.brood q hh hq with hres | hk | hst
      · exact .inl hres
      · exact (hlive q hk).elim
      · exact .inr (panicked_of_stage hst)

end

/-- No coroutine calls `mioco::shutdown`. -/
def unstopped (_ : Instance S w α) (a : Action α) : Prop := a.isShutdown = false

instance (s : Instance S w α) (a : Action α) : Decidable (s.unstopped a) :=
  inferInstanceAs (Decidable (a.isShutdown = false))

theorem peaceful_unwinds {late : Bool} (hp : Peaceful true late s) (a : Action α) : s.unwinds a := by
  have hkill : ∀ t, s.inKill t = false := by
    intro t
    unfold inKill
    split
    · rename_i c ret hpc
      have hret := (hp.exec hpc).1
      cases ret <;> first | rfl | cases hret
    · rfl
  unfold unwinds
  split
  · exact hkill _
  · exact hkill _
  · trivial

/-- A thread that stops has no handles: those it had would be of live coroutines. -/
theorem stopping_bare {g : Nat → Nat} (hs : Sound (s.pool g)) (hp : Peaceful true (decide (0 < s.broadcasts)) s)
    (hn : Numbered s) (hpc : (s.threads t).pc = .stopping) :
    (s.threads t).held = [] ∧ (s.threads t).spawned = [] ∧ (s.threads t).ready = [] := by
  have hlate : 0 < s.broadcasts := by
    have hgrave := (hp.threads t).pc
    rw [hpc] at hgrave
    simpa using hgrave
  have hsd : ((s.pool g).desks t).isShuttingDown = false := (hp.threads t).isShuttingDown rfl
  have hnone : ∀ h : Handle, h ∈ (s.threads t).held ∨ h ∈ (s.threads t).spawned ∨ h ∈ (s.threads t).ready → False := by
    intro h hin
    have hwait : 0 < (s.pool g).waiting t h.co := by
      have hcount : ∀ l : List Handle, h ∈ l → 0 < (l.map Handle.co).count h.co :=
        fun l hl => List.count_pos_iff.2 (List.mem_map_of_mem hl)
      have hle : (s.pool g).waiting t h.co = ((s.threads t).held.map Handle.co).count h.co +
          ((s.threads t).spawned.map Handle.co).count h.co + ((s.threads t).ready.map Handle.co).count h.co +
            (((s.pool g).desks t).stage.kids (s.pool g).fibers).count h.co := rfl
      rcases hin with hin | hin | hin <;> have := hcount _ hin <;> omega
    have hown := own_of_waiting hs hwait
    have hready : (s.cos h.co).state = .ready := ((hs.desk t).handled.fit hsd h.co hwait).1
    have hlt : h.co < s.coN := by
      by_contra hge
      have hloose := (hs.fresh h.co (Nat.le_of_not_lt hge)).1.handler
      rw [show ((s.pool g).fibers h.co).handler = (s.cos h.co).handler from rfl, hown] at hloose
      cases hloose
    have hmem : h.co ∈ s.unfinished := mem_unfinished.2 ⟨hlt, by rw [hready]; decide⟩
    rw [hn.last hlate] at hmem
    exact absurd hmem (Finset.notMem_empty _)
  refine ⟨?_, ?_, ?_⟩ <;> refine List.eq_nil_iff_forall_not_mem.2 (fun h hin => hnone h ?_)
  · exact .inl hin
  · exact .inr (.inl hin)
  · exact .inr (.inr hin)

theorem broadcasts_mono {a : Action α} (hst : s.step cfg a = some s') : s.broadcasts ≤ s'.broadcasts := by
  by_cases hu : ∀ t u, a = .thread t (.user u) → (∀ id, u ≠ .spawn id) ∧ ∀ res, u ≠ .finish res
  · have hcounts := step_counts hst hu
    simp only [counts, Prod.mk.injEq] at hcounts
    exact Nat.le_of_eq hcounts.2.2.symm
  · push Not at hu
    obtain ⟨t, u, rfl, hu⟩ := hu
    obtain ⟨-, -, hst⟩ := step_thread hst
    simp only [threadStep, user] at hst
    split at hst
    · cases u with
      | spawn id =>
        simp only at hst
        split at hst <;> cases hst
        exact Nat.le_refl _
      | finish res =>
        cases hst
        simp only [finish]
        split
        · exact Nat.le_refl _
        · show s.broadcasts ≤ if s.coroutinesNum = 1 then s.broadcasts + 1 else s.broadcasts
          split <;> omega
      | _ =>
        obtain ⟨res, hres⟩ := hu (fun id => by simp)
        cases hres
    · cases hst

/-- **A run without a shutdown is one in which nobody is killed**, if the scheduler drops no handle. -/
theorem peaceful_reach {bound : Nat → Option Nat} (hdrop : ∀ n held th sh i, (S.next n held th sh).1 ≠ .drop i)
    (h : (mioco S w α cfg bound).Reach unstopped s) : Peaceful true (decide (0 < s.broadcasts)) s ∧
      s.Shipped ∧ ∃ g, Sound (s.pool g) ∧ (s.pool g).Settled := by
  induction h with
  | init h0 =>
    cases (show _ = Instance.start S w bound from h0)
    exact ⟨.start S w α bound, shipped_start bound, fun _ => 0, sound_start S w α bound, settled_start S w α bound⟩
  | next hr hok hst ih =>
    rename_i s s' a
    obtain ⟨hp, hship, g, hs, hl⟩ := ih
    have hpath := step_path (g := g) (fun _ _ => True) (Custody.reach hr) (peaceful_unwinds hp a)
      (fun _ _ _ _ _ _ => trivial) hst
    have hno : ∀ t, a ≠ .thread t (.user .shutdown) := fun t ha => by
      rw [ha] at hok
      cases hok
    have hstop := fun t (hpc : (s.threads t).pc = .stopping) => stopping_bare hs hp (Numbered.reach hr) hpc
    refine ⟨?_, hship.step (Custody.reach hr).engagement hst, _, hpath.sound hs, hpath.settled hs hl⟩
    by_cases hb : 0 < s'.broadcasts
    · rw [decide_eq_true hb]
      exact hp.mono.step (fun _ => hno) (fun _ => hdrop) (fun _ => hstop) hst (fun hf => by cases hf)
    · have hb' : ¬ 0 < s.broadcasts := fun hpos => hb (Nat.lt_of_lt_of_le hpos (broadcasts_mono hst))
      rw [decide_eq_false hb'] at hp
      rw [decide_eq_false hb]
      exact hp.step (fun _ => hno) (fun _ => hdrop) (fun _ => hstop) hst (fun _ => by omega)

theorem fifo_keeps (n : Nat) (held : List Handle) (th : fifo.Thread) (sh : fifo.Shared) (i : Nat) :
    (fifo.next n held th sh).1 ≠ .drop i := by
  simp only [fifo, FifoThread.next]
  split
  · simp
  · split <;> simp
  all_goals simp

/-- **Scheduling handles are conserved** before a shutdown. -/
theorem handles_conserved {w : Nat} {α : Type} {cfg : Config} {bound : Nat → Option Nat} {s : Instance fifo w α}
    (h : (mioco fifo w α cfg bound).Reach unstopped s) : Conserved s := by
  obtain ⟨hp, hship, g, hs, hl⟩ := peaceful_reach fifo_keeps h
  exact conserved_of hs hl hship hp

/-- On two threads coroutine 0 spawns coroutine 1 and yields; coroutine 1 is sent to thread 1. -/
def yieldsAndSends : List (Action Unit) :=
  [.thread 0 .start, .thread 1 .start, .thread 0 (.sched 0), .thread 0 .next, .thread 0 (.sched 0),
   .thread 0 (.user (.spawn 2)), .thread 0 (.user .yieldNow), .thread 0 .next, .thread 0 .next, .thread 0 (.sched 0),
   .thread 0 .next, .thread 0 (.sched 0), .thread 0 .next, .thread 0 (.sched 0), .thread 0 .next]

theorem handles_conserved_two : ∃ s : Instance fifo 64 Unit, s.controls 0 0 = 1 ∧ s.controls 1 1 = 1 ∧ Conserved s := by
  have hsome : ((mioco fifo 64 Unit ⟨2, true⟩ (fun _ => none)).exec yieldsAndSends
      (start fifo 64 (fun _ => none))).any (fun s => decide (s.controls 0 0 = 1 ∧ s.controls 1 1 = 1)) = true := by
    decide +kernel
  obtain ⟨s, hs, hand⟩ := (Option.any_eq_true _ _).1 hsome
  obtain ⟨h0, h1⟩ := of_decide_eq_true hand
  have hinit : (mioco fifo 64 Unit ⟨2, true⟩ (fun _ => none)).Reach unstopped (start fifo 64 (fun _ => none)) :=
    .init rfl
  have hr := System.reach_exec yieldsAndSends _ s hinit (by decide +kernel) hs
  exact ⟨s, h0, h1, handles_conserved hr⟩

end Instance
end Mioco

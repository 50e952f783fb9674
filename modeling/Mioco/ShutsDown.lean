import Mioco.Children
import Mioco.Steady
/-!
# Shutdown is complete (src/thread.rs, src/coroutine.rs, src/mod.rs)

After `mioco::shutdown` nothing is left of an instance once no thread can go on: the kill wave of every thread has met
every coroutine, wherever it was, and the one `Terminate` has ended every event loop.
-/
namespace Mioco

open Lib (System Slab)
open Pooling

/-! ## `Shutdown` gets to every thread -/

namespace Pooling
variable {p p' : Pool} {t : Nat} {may : Ret → Nat → Prop}

/-- A thread that shuts down goes on shutting down. -/
def Pool.Shuts (p p' : Pool) : Prop := ∀ i, (p.desks i).isShuttingDown = true → (p'.desks i).isShuttingDown = true

theorem Pool.Shuts.setDesk {q : Pool} (hq : q.desks = p.desks) {d : Desk}
    (hd : (p.desks t).isShuttingDown = true → d.isShuttingDown = true) : p.Shuts (q.setDesk t d) := by
  intro i hi
  rw [Pool.desks_setDesk]
  split
  · rename_i hit
    exact hd (hit ▸ hi)
  · rw [hq]
    exact hi

theorem Pool.Step.shuts (h : p.Step may t p') : p.Shuts p' := by
  cases h with
  | moves d hm => cases hm <;> first | exact Pool.Shuts.setDesk rfl id | exact Pool.Shuts.setDesk rfl (fun _ => rfl)
  | seizes c d hm => cases hm <;> exact Pool.Shuts.setDesk rfl id
  | sends c l l' k slab hst hh hrem =>
    have hmid : p.Shuts ((p.detach c).setDesk t { p.desks t with coroutines := slab, stage := .call k }) :=
      Pool.Shuts.setDesk rfl id
    intro i hi
    have hmid := hmid i hi
    rw [Pool.post, Pool.desks_setDesk]
    split
    · rename_i hil
      exact hil ▸ hmid
    · exact hmid
  | _ => exact Pool.Shuts.setDesk rfl id

theorem Pool.Path.shuts (h : Pool.Path may p p') : p.Shuts p' := by
  induction h with
  | refl => exact fun _ hi => hi
  | tail _ hst ih =>
    obtain ⟨t, hst⟩ := hst
    exact fun i hi => hst.shuts i (ih i hi)

end Pooling

namespace Instance
variable {S : Sched} {w : Nat} {α : Type} {n : Nat} {s s' : Instance S w α} {t c : Nat} {cfg : Config}
  {bound : Nat → Option Nat}

/-- Thread `t` shuts down, or it will. -/
def Warned (s : Instance S w α) (t : Nat) : Prop :=
  (s.threads t).isShuttingDown = true ∨ .shutdown ∈ (s.threads t).inbox

/-- **`broadcast_shutdown`** has been called and is over, or it goes on. -/
inductive Announced (n : Nat) (s : Instance S w α) : Prop
  | all : (∀ t < n, s.Warned t) → Announced n s
  | going (t c : Nat) (ret : Ret) (i : Nat) : (s.threads t).pc = .exec c ret (.shutdown i) → (∀ t < i, s.Warned t) →
      Announced n s

theorem stays_shuttingDown (hc : Custody s) {a : Action α} (hu : s.unwinds a) (hst : s.step cfg a = some s')
    (h : (s.threads t).isShuttingDown = true) : (s'.threads t).isShuttingDown = true :=
  (step_path (g := fun _ => 0) (fun _ _ => True) hc hu (fun _ _ _ _ _ _ => trivial) hst).shuts t h

theorem warned_thread {a : ThreadAct α} (hst : s.threadStep cfg t a = some s') {i : Nat}
    (hin : Message.shutdown ∈ (s.threads i).inbox) : s'.Warned i := by
  by_cases hstop : a = .stop
  · subst hstop
    simp only [threadStep] at hst
    split at hst <;> cases hst
    refine .inr ?_
    rw [setPc, threads_setThread]
    split
    · rename_i hit
      exact hit ▸ hin
    · exact hin
  · rcases (takes_thread hstop hst).inbox i _ hin with hin' | ⟨rfl, hshut, -⟩
    · exact .inr hin'
    · exact .inl (hshut rfl)

theorem Warned.step (h : s.Warned t) (hc : Custody s) {a : Action α} (hu : s.unwinds a) (hst : s.step cfg a = some s') :
    s'.Warned t := by
  rcases h with h | hin
  · exact .inl (stays_shuttingDown hc hu hst h)
  · by_cases hthread : ∃ i b, a = .thread i b
    · obtain ⟨i, b, rfl⟩ := hthread
      obtain ⟨-, -, hst⟩ := step_thread hst
      exact warned_thread hst hin
    · exact .inr ((calm_outside (t := t) (fun i b hb => hthread ⟨i, b, hb⟩) hst).inbox t _ hin)

/-- **`Shutdown` is sent to one thread after the other**; none of them is gone while a coroutine sends it. -/
theorem Announced.step (h : Announced cfg.threadNum s) (hc : Custody s)
    (hopen : ∀ t c ret i, (s.threads t).pc = .exec c ret (.shutdown i) →
      ∀ l < cfg.threadNum, (s.threads l).isOpen = true)
    {a : Action α} (hu : s.unwinds a) (hst : s.step cfg a = some s') : Announced cfg.threadNum s' := by
  cases h with
  | all hall => exact .all (fun i hi => (hall i hi).step hc hu hst)
  | going t c ret i hpc hw =>
    have hw' : ∀ l < i, s'.Warned l := fun l hl => (hw l hl).step hc hu hst
    by_cases ha : ∃ b, a = .thread t b
    · obtain ⟨b, rfl⟩ := ha
      obtain ⟨-, -, hst⟩ := step_thread hst
      have hjob := threadStep_job hpc (by simp) hst
      simp only [job] at hjob
      by_cases hi : i < cfg.threadNum
      · rw [if_pos ⟨hi, hopen t c ret i hpc i hi⟩] at hjob
        cases hjob
        refine .going t c ret (i + 1) ?_ (fun l hl => ?_)
        · rw [threads_send, setPc, setThread_self]
        · rcases Nat.lt_succ_iff_lt_or_eq.1 hl with hl | hl
          · exact hw' l hl
          · subst hl
            refine .inr ?_
            rw [threads_send, if_pos rfl]
            exact List.mem_append_right _ (List.mem_singleton.2 rfl)
      · exact .all (fun l hl => hw' l (by omega))
    · refine .going t c ret i ?_ hw'
      rw [(step_told (fun b hb => ha ⟨b, hb⟩) hst).pc]
      exact hpc

/-! ## The exit status of every coroutine -/

/-- `exit_sender` of a coroutine that has ended is at work, or it is dropped. -/
inductive Parting (s : Instance S w α) (c : Nat) : Prop
  | working (t : Nat) (ret : Ret) (j : Job α) : (s.threads t).pc = .exec c ret j → j.live = false → Parting s c
  | lost (t : Nat) : (s.threads t).pc.isPanicked = true → Parting s c
  | parted : (s.chans (.join c)).senders = [.dropped] → Parting s c

def Parted (s : Instance S w α) : Prop := ∀ c, (s.cos c).state = .finished → Parting s c

/-- The end of a coroutine goes on to the end. -/
theorem JobStep.ends {j j' : Job α} (h : JobStep cfg j j') (hj : j.live = false) : j'.live = false := by
  cases h with
  | report i res =>
    cases res with
    | ok v => rfl
    | err =>
      simp only [Config.report]
      split <;> rfl
  | shutdown | shutdownNext i | shutdownEnd i => cases hj
  | terminateNext i res => rfl
  | propagate => rfl

/-- Steps of thread `t` that end nobody: it has panicked, or it works on for the same coroutine, or its coroutine has
parted. -/
theorem Parting.keep (h : Parting s c) (hpc : ∀ i, i ≠ t → (s'.threads i).pc = (s.threads i).pc)
    (hpan : (s.threads t).pc.isPanicked = true → (s'.threads t).pc.isPanicked = true)
    (hsend : (s.chans (.join c)).senders = [.dropped] → (s'.chans (.join c)).senders = [.dropped])
    (hwork : ∀ ret j, (s.threads t).pc = .exec c ret j → j.live = false → Parting s' c) : Parting s' c := by
  cases h with
  | working i ret j hp hj =>
    by_cases hi : i = t
    · exact hwork ret j (hi ▸ hp) hj
    · exact .working i ret j ((hpc i hi).trans hp) hj
  | lost i hp =>
    by_cases hi : i = t
    · exact .lost t (hpan (hi ▸ hp))
    · exact .lost i (by rw [hpc i hi]; exact hp)
  | parted hs => exact .parted (hsend hs)

theorem Parted.step (h : Parted s) (hc : Custody s) {a : Action α} (hst : s.step cfg a = some s') : Parted s' := by
  -- a thread that has panicked takes no step
  have halive : ∀ (t : Nat) (b : ThreadAct α), a = .thread t b → (s.threads t).pc.isPanicked = true →
      (s'.threads t).pc.isPanicked = true := by
    intro t b ha hp
    subst ha
    obtain ⟨-, -, hst⟩ := step_thread hst
    rw [threadStep_panicked hp] at hst
    cases hst
  cases step_kind hc.engagement hst with
  | lands t b hl hdone =>
    intro x hx
    refine (h x ((hl.finished x).1 hx)).keep hl.pc (halive t b rfl) (fun hs => (hl.chans x).senders.trans hs)
      (fun ret j hp hj => ?_)
    obtain ⟨why, hwhy, -⟩ := hdone x j (by rw [hp]; rfl)
    exact .lost t (by rw [hwhy]; rfl)
  | switches t d ret u hpc hu hl =>
    intro x hx
    refine (h x ((hl.finished x).1 hx)).keep hl.pc (halive t _ rfl) (fun hs => (hl.chans x).senders.trans hs)
      (fun ret' j hp hj => ?_)
    rw [hpc] at hp
    cases hp
    cases hj
  | job t d ret j j' b hpc hj hq hpc' =>
    intro x hx
    refine (h x ((hq.finished x).1 hx)).keep hq.pc (halive t b rfl) (fun hs => (hq.chans x).senders.trans hs)
      (fun ret' i hp hi => ?_)
    rw [hpc] at hp
    cases hp
    exact .working t ret j' hpc' (hj.ends hi)
  | spawn t d ret id slab hpc =>
    intro x hx
    rw [setThread_cos, cos_setCo] at hx
    split at hx
    · cases hx
    · have hx' : (s.cos x).state = .finished := by
        refine (setCo_finished ?_ x).1 hx
        exact Iff.rfl
      refine (h x hx').keep (fun i hi => congrArg Thread.pc (setThread_ne _ _ hi)) (halive t _ rfl) (fun hs => hs)
        (fun ret' j hp hj => ?_)
      rw [hpc] at hp
      cases hp
      cases hj
  | finish t d ret res hpc he hpc' =>
    intro x hx
    by_cases hxd : x = d
    · subst hxd
      rcases hpc' with hp | hp | hp
      · exact .lost t (by rw [hp]; rfl)
      · exact .working t ret _ hp rfl
      · refine .working t ret _ hp ?_
        have hends : (cfg.report res).live = false := JobStep.ends (j := .terminate 0 res) (.report 0 res) rfl
        exact hends
    · rw [he.co, Function.update_of_ne hxd] at hx
      refine (h x hx).keep he.pc (halive t _ rfl) (fun hs => by rw [he.chans]; exact hs) (fun ret' j hp hj => ?_)
      rw [hpc] at hp
      cases hp
      cases hj
  | exits t d ret res pc chan k b hpc hs hd hstep hm hq hpc' =>
    subst hm
    intro x hx
    refine (h x ((hq.finished x).1 hx)).keep hq.pc (halive t b rfl) (fun hsend => ?_) (fun ret' j hp hj => ?_)
    · by_cases hxd : x = d
      · subst hxd
        rw [hsend] at hs
        cases hs
        exact (hd rfl).elim
      · rw [(hq.chans x).senders, chans_setChan, if_neg (by simpa using hxd)]
        exact hsend
    · rw [hpc] at hp
      cases hp
      rcases hpc' with hp | ⟨why, hp⟩
      · exact .working t ret _ hp rfl
      · exact .lost t (by rw [hp]; rfl)
  | exited t d ret res b hpc hs hl =>
    intro x hx
    refine (h x ((hl.finished x).1 hx)).keep hl.pc (halive t b rfl) (fun hs => (hl.chans x).senders.trans hs)
      (fun ret' j hp hj => ?_)
    rw [hpc] at hp
    cases hp
    obtain ⟨p, hp, -⟩ := (hc.exits d).sender
    rw [hp] at hs
    cases hs
    exact .parted ((hl.chans d).senders.trans hp)
  | lost t d why b hfree hh hm hl hwhy hpc' =>
    subst hm
    intro x hx
    have hx' : (s.cos x).state = .finished := by
      refine (setCo_finished ?_ x).1 ((hl.finished x).1 hx)
      exact Iff.rfl
    refine (h x hx').keep hl.pc (halive t b rfl) (fun hs => (hl.chans x).senders.trans hs) (fun ret' j hp hj => ?_)
    rw [hp] at hfree
    cases hfree
  | detach t d l k slab b hfree hh hm =>
    subst hm
    intro x hx
    have hx' : (s.cos x).state = .finished := by
      refine (setCo_finished ?_ x).1 hx
      exact Iff.rfl
    refine (h x hx').keep (t := t) (fun i hi => ?_) (halive t b rfl) (fun hs => hs) (fun ret' j hp hj => ?_)
    · rw [threads_send]
      show (Instance.threads _ i).pc = _
      rw [setThread_ne _ _ hi]
      rfl
    · rw [hp] at hfree
      cases hfree
  | attach t d id slab rest b hin hpc =>
    intro x hx
    have hx' : (s.cos x).state = .finished := by
      refine (setCo_finished ?_ x).1 hx
      exact Iff.rfl
    refine (h x hx').keep (t := t) (fun i hi => congrArg Thread.pc (setThread_ne _ _ hi)) (halive t b rfl) (fun hs => hs)
      (fun ret' j hp hj => ?_)
    rw [hpc] at hp
    cases hp
  | outside hout hq hpc =>
    intro x hx
    refine (h x ((hq.finished x).1 hx)).keep hq.pc (fun hp => by rw [hpc]; exact hp)
      (fun hs => (hq.chans x).senders.trans hs) (fun ret j hp hj => .working 0 ret j (hpc.trans hp) hj)
  | receiver d b hcos hth hn hj hother hr =>
    intro x hx
    rw [hcos] at hx
    refine (h x hx).keep (t := 0) (fun i _ => by rw [hth]) (fun hp => by rw [hth]; exact hp) (fun hs => ?_)
      (fun ret j hp hj => .working 0 ret j (by rw [hth]; exact hp) hj)
    by_cases hxd : x = d
    · subst hxd
      have hbound := (hc.exits x).bound
      generalize s'.chans (.join x) = chan at hr ⊢
      generalize s'.received (.join x) = k at hr
      cases hr with
      | same hsame => exact hsame.senders.trans hs
      | took res hres => exact hs
      | handed hzero =>
        rw [hbound] at hzero
        cases hzero
      | dropped => exact hs
    · rw [(hother x hxd).1]
      exact hs

/-! ## When no thread can go on -/

/-- Thread `t` has not panicked. -/
theorem Steady.not_panicked {g : Nat → Nat} (h : Steady n s) (hs : Sound (s.pool g)) (t : Nat) (why : Panic) :
    (s.threads t).pc ≠ .panicked why := by
  intro hpc
  have hbroken := h.unbroken t
  rw [hpc, Pc.isBroken, not_stray hs hpc] at hbroken
  cases hbroken

/-- **A thread that cannot go on** is done, or it is in mio with nothing in its queue. -/
theorem stuck_thread (hw : 1 < w) (hc : Custody s) (hroom : ∀ t, 0 < (s.threads t).coroutines.slots.length)
    (hp : ∀ t why, (s.threads t).pc ≠ .panicked why) (hstuck : s.stuck cfg) (ht : t < cfg.threadNum) :
    (s.threads t).pc = .done ∨ (s.threads t).pc = .poll ∧ (s.threads t).inbox = [] := by
  have hfirst : (s.threads 0).pc.isStarting = false := by
    by_contra hs
    have hnone := hstuck 0 (by omega) .start (by simp)
    simp only [threadStep, Bool.eq_true_of_not_eq_false hs] at hnone
    cases hnone
  have hstart : (s.threads t).pc ≠ .starting := by
    intro hpc
    have hnone := hstuck t ht .start (by simp)
    have hsome : (s.threads t).pc.isStarting = true ∧ (t = 0 ∨ (s.threads 0).pc.isStarting = false) :=
      ⟨by rw [hpc]; rfl, .inr hfirst⟩
    simp only [threadStep, if_pos hsome] at hnone
    cases hnone
  by_contra hno
  have henabled : ∃ a, a ≠ .tick ∧ ∃ m, s.threadStep cfg t a = some m := by
    refine thread_enabled hw hc (hroom t) (fun h => (hstart h).elim) ?_ (fun hpoll hin => hno (.inr ⟨hpoll, hin⟩))
    cases hpc : (s.threads t).pc with
    | done => exact (hno (.inl hpc)).elim
    | panicked why => exact (hp t why hpc).elim
    | _ => rfl
  obtain ⟨a, ha, m, hm⟩ := henabled
  rw [hstuck t ht a ha] at hm
  cases hm

/-- **The children and the slabs** of a run in which nobody is spawned by a coroutine that is being killed. -/
theorem reared_reach (h : (mioco S w α cfg bound).Reach (fun s a => s.unwinds a ∧ s.tends a = true) s) :
    ∃ g, Sound (s.pool g) ∧ Reared (s.pool g) := by
  have hrun : ∃ m : Reckoned S w α, m.inst = s ∧ (reckoned S w α cfg bound).Reach Reckoned.tending m := by
    induction h with
    | init h0 =>
      cases (show _ = Instance.start S w bound from h0)
      exact ⟨.start S w bound, rfl, .init rfl⟩
    | next _ hok hst ih =>
      obtain ⟨m, rfl, hm⟩ := ih
      exact ⟨⟨_, m.inst.hands m.handed _⟩, rfl, .next hm hok (Option.map_eq_some_iff.2 ⟨_, hst, rfl⟩)⟩
  obtain ⟨m, rfl, hm⟩ := hrun
  exact ⟨m.handed, Reckoned.reared hm⟩

/-- Nobody is stored on a thread that shuts down and is in mio. -/
theorem emptied_of {g : Nat → Nat} (hr : Reared (s.pool g)) (hsd : (s.threads t).isShuttingDown = true)
    (hpc : (s.threads t).pc = .poll) (id : Nat) : (s.threads t).coroutines.get id = none := by
  have hst : ((s.pool g).desks t).stage = .poll := stage_pool hpc
  by_contra hne
  obtain ⟨c, hg⟩ := Option.ne_none_iff_exists'.1 hne
  rcases (hr.tended t).wave hsd (by rw [hst]; simp) id c hg with hx | hx | ⟨i, last, hx, -⟩
  · rw [hst] at hx
    cases hx
  · rw [hst] at hx
    cases hx
  · rw [hst] at hx
    cases hx

/-- **The last coroutine has ended** when no thread can go on and every one was told to shut down. -/
theorem all_finished {g : Nat → Nat} (hl : Ledger n s) (hr : Reared (s.pool g))
    (hrest : ∀ t < n, (s.threads t).pc = .poll ∧ (s.threads t).inbox = []) (hwarned : ∀ t < n, s.Warned t)
    (hlt : c < s.coN) : (s.cos c).state = .finished := by
  by_contra hlive
  cases hh : (s.cos c).handler with
  | some t =>
    obtain ⟨ht, hget⟩ := hl.placed t c ⟨hlt, hlive, hh⟩
    obtain ⟨hpc, hin⟩ := hrest t ht
    have hsd : (s.threads t).isShuttingDown = true := by
      refine (hwarned t ht).resolve_right (fun hm => ?_)
      rw [hin] at hm
      cases hm
    rw [emptied_of hr hsd hpc] at hget
    cases hget
  | none =>
    have hflight := hl.flight c
    rw [if_pos ⟨hlt, hlive, hh⟩] at hflight
    have hzero : ∑ t ∈ Finset.range n, (s.threads t).carried c = 0 := by
      refine Finset.sum_eq_zero (fun t ht => ?_)
      rw [Thread.carried, (hrest t (Finset.mem_range.1 ht)).2, List.countP_nil]
    omega

/-- **`Terminate` has ended every event loop** when no thread can go on and no coroutine is left. -/
theorem all_done (hl : Ledger n s) (hzero : s.coroutinesNum = 0)
    (hrest : ∀ t < n, (s.threads t).pc = .done ∨ (s.threads t).pc = .poll ∧ (s.threads t).inbox = [])
    (hstop : ∀ t < n, (s.threads t).pc = .poll → (s.threads t).terminated = false) (ht : t < n) :
    (s.threads t).pc = .done := by
  rcases hrest t ht with hdone | ⟨hpoll, hin⟩
  · exact hdone
  · have hb : s.broadcasts = 1 := by
      by_contra hb
      have hquiet := hl.quiet (by have := hl.once; omega)
      omega
    have hnobody : ∀ t', (s.threads t').pc.terminating = none := by
      intro t'
      by_cases ht' : t' < n
      · rcases hrest t' ht' with hp | ⟨hp, -⟩ <;> rw [hp] <;> rfl
      · have hout := hl.outside t' (by omega)
        rw [Pc.eq_starting hout]
        rfl
    have hone := hl.everywhere hb hnobody t ht
    rw [hl.terminated t, hin, hstop t ht hpoll] at hone
    cases hone

end Instance

/-- **Nothing is left** of an instance of `n` threads. -/
structure ShutDown {S : Sched} {w : Nat} {α : Type} (n : Nat) (s : Recorded S w α) : Prop where
  finished : ∀ c < s.inst.coN, (s.inst.cos c).state = .finished
  emptied : ∀ t id, (s.inst.threads t).coroutines.get id = none
  zero : s.inst.coroutinesNum = 0
  /-- `join` has received how the function ended, or finds it in the channel -/
  joins : ∀ c < s.inst.coN, (s.inst.chans (.join c)).receiver = true →
    ∃ res, s.statuses c = [res] ∧ s.joined c ++ (s.inst.chans (.join c)).queue = [res]
  terminated : ∀ t < n, (s.inst.threads t).pc = .done

namespace Recorded
variable {S : Sched} {w : Nat} {α : Type} {s s₀ s₁ : Recorded S w α} {cfg : Config} {bound : Nat → Option Nat} {t : Nat}

/-- The step condition of this module: the code of a coroutine that is being killed neither blocks nor catches the kill,
nor does it spawn behind the back of `Handler::shutdown`, and no event-loop thread panics. -/
def clean (n : Nat) (s : Recorded S w α) (a : Action α) : Prop :=
  civil s a ∧ s.inst.tends a = true ∧ s.inst.steady n a = true

/-- What holds wherever a clean run comes to. -/
structure Clean (n : Nat) (s : Recorded S w α) : Prop where
  steady : s.inst.Steady n
  custody : Instance.Custody s.inst
  reports : ∀ c, Reports s c
  parted : s.inst.Parted
  counted : s.inst.unfinished.card = s.inst.coroutinesNum
  ended : ∀ t, (s.inst.threads t).pc = .done → s.inst.unfinished = ∅
  room : ∀ t, 0 < (s.inst.threads t).coroutines.slots.length
  alive : ∀ t why, (s.inst.threads t).pc ≠ .panicked why
  reared : ∃ g, Reared (s.inst.pool g)

theorem clean_reach (hn : 0 < cfg.threadNum) (hcatch : cfg.catchPanics = true)
    (h : (recorded S w α cfg bound).Reach (clean cfg.threadNum) s) : Clean cfg.threadNum s := by
  have hany : (mioco S w α cfg bound).Reach System.anyStep s.inst := reach_inst (fun _ _ _ => trivial) h
  have hc := Instance.Custody.reach hany
  have hsteady : s.inst.Steady cfg.threadNum :=
    Instance.steady_reach hn hcatch (reach_inst (fun _ _ hok => ⟨hok.1.1, hok.2.2⟩) h)
  obtain ⟨g, hs, hr⟩ := Instance.reared_reach (reach_inst (fun _ _ hok => ⟨hok.1.1, hok.2.1⟩) h)
  have hparted : s.inst.Parted := by
    refine hany.invariant_of Instance.Custody Instance.Parted (fun _ hr => .reach hr) (fun m hm c hf => ?_)
      (fun _ _ _ hc hp _ hst _ => hp.step hc hst)
    cases (show m = Instance.start S w bound from hm)
    simp only [Instance.start, Function.update_apply] at hf
    split at hf <;> cases hf
  exact ⟨hsteady, hc, reports hcatch (h.mono (fun _ _ hok => hok.1)), hparted,
    Instance.counted (reach_inst (fun _ _ hok => hok.1.1) h), fun t hpc => Instance.ended_last hany (.inr hpc),
    Instance.room_reach hany, hsteady.not_panicked hs, g, hr⟩

/-- A coroutine that calls `mioco::shutdown` gets to tell every thread. -/
theorem announced (hn : 0 < cfg.threadNum) (hcatch : cfg.catchPanics = true)
    (hs₀ : (recorded S w α cfg bound).Reach (clean cfg.threadNum) s₀)
    (hcall : s₀.step cfg (.thread t (.user .shutdown)) = some s₁)
    (hrun : ((recorded S w α cfg bound).startingAt s₁).Reach (clean cfg.threadNum) s) :
    (recorded S w α cfg bound).Reach (clean cfg.threadNum) s ∧ s.inst.Announced cfg.threadNum := by
  have hcallok : clean cfg.threadNum s₀ (.thread t (.user .shutdown)) := by
    refine ⟨⟨?_, ?_⟩, ?_, ?_⟩ <;> constructor
  have hs₁ : (recorded S w α cfg bound).Reach (clean cfg.threadNum) s₁ := .next hs₀ hcallok hcall
  refine hrun.invariant_after (fun m => (recorded S w α cfg bound).Reach (clean cfg.threadNum) m ∧
    m.inst.Announced cfg.threadNum) ⟨hs₁, ?_⟩ (fun m a m' hm hok hst => ⟨.next hm.1 hok hst, ?_⟩)
  · obtain ⟨inst, hinst, rfl⟩ := Option.map_eq_some_iff.1 hcall
    simp only [Instance.step, Instance.threadStep, Instance.user] at hinst
    split at hinst
    · split at hinst
      · rename_i c ret hpc
        cases hinst
        refine .going t c ret 0 ?_ (fun l hl => absurd hl (Nat.not_lt_zero l))
        show (Instance.threads (Instance.setPc _ t _) t).pc = _
        rw [Instance.setPc, Instance.setThread_self]
      · cases hinst
    · cases hinst
  · obtain ⟨inst, hinst, rfl⟩ := Option.map_eq_some_iff.1 hst
    have hclean := clean_reach hn hcatch hm.1
    refine hm.2.step hclean.custody (fun t c ret i hpc l _ => ?_) hok.1.1 hinst
    -- a loop that is gone is one that was told to terminate
    by_contra hclosed
    have hended := hclean.steady.ledger.closed l (by simpa using hclosed)
    have hin := hclean.custody.engaged t c (some (.shutdown i)) (by rw [hpc]; rfl)
    cases hl : (m.inst.threads l).pc with
    | done =>
      have hmem : c ∈ m.inst.unfinished :=
        Instance.mem_unfinished.2 ⟨hclean.custody.lt_of_handler hin.attached, hin.live rfl⟩
      rw [hclean.ended l hl] at hmem
      exact absurd hmem (Finset.notMem_empty c)
    | panicked why => exact hclean.alive l why hl
    | _ =>
      rw [hl] at hended
      cases hended

/-- **Shutdown is complete**: the ids that `Handler::shutdown` walks are those of all its coroutines, and when no thread
can go on every coroutine has ended, every status was sent and every event loop is done. -/
theorem shutdown_complete (hw : 1 < w) (hn : 0 < cfg.threadNum) (hcatch : cfg.catchPanics = true)
    (hs₀ : (recorded S w α cfg bound).Reach (clean cfg.threadNum) s₀)
    (hcall : s₀.step cfg (.thread t (.user .shutdown)) = some s₁)
    (hrun : ((recorded S w α cfg bound).startingAt s₁).Reach (clean cfg.threadNum) s) :
    (∀ c < s.inst.coN, (s.inst.cos c).state ≠ .finished → ∀ l, (s.inst.cos c).handler = some l →
      startingId ≤ (s.inst.cos c).id ∧ (s.inst.cos c).id < startingId +
        ((s.inst.threads l).coroutines.count + (s.inst.threads l).coroutines.remaining)) ∧
    (s.inst.stuck cfg → ShutDown cfg.threadNum s) := by
  obtain ⟨hs, hannounced⟩ := announced hn hcatch hs₀ hcall hrun
  have hclean := clean_reach hn hcatch hs
  have hl := hclean.steady.ledger
  obtain ⟨g, hreared⟩ := hclean.reared
  refine ⟨fun c hc hlive l hh => ?_, fun hstuck => ?_⟩
  · have hlt := Slab.get_lt (hl.placed l c ⟨hc, hlive, hh⟩).2
    have hle := (s.inst.threads l).coroutines.count_le
    have hrem : (s.inst.threads l).coroutines.remaining =
        (s.inst.threads l).coroutines.slots.length - (s.inst.threads l).coroutines.count := rfl
    omega
  have hrest : ∀ l < cfg.threadNum, (s.inst.threads l).pc = .done ∨
      (s.inst.threads l).pc = .poll ∧ (s.inst.threads l).inbox = [] :=
    fun l hlt => Instance.stuck_thread hw hclean.custody hclean.room hclean.alive hstuck hlt
  have hidle : ∀ l c ret j, (s.inst.threads l).pc ≠ .exec c ret j := by
    intro l c ret j hpc
    by_cases hlt : l < cfg.threadNum
    · rcases hrest l hlt with hp | ⟨hp, -⟩ <;> rw [hp] at hpc <;> cases hpc
    · have hout := hl.outside l (by omega)
      rw [hpc] at hout
      cases hout
  have hfinished : ∀ c < s.inst.coN, (s.inst.cos c).state = .finished := by
    intro c hc
    by_cases hdone : ∃ l, (s.inst.threads l).pc = .done
    · obtain ⟨l, hdone⟩ := hdone
      by_contra hlive
      have hmem : c ∈ s.inst.unfinished := Instance.mem_unfinished.2 ⟨hc, hlive⟩
      rw [hclean.ended l hdone] at hmem
      exact absurd hmem (Finset.notMem_empty c)
    · refine Instance.all_finished hl hreared (fun l hlt => (hrest l hlt).resolve_left (fun h => hdone ⟨l, h⟩)) ?_ hc
      cases hannounced with
      | all hall => exact hall
      | going l c ret i hpc => exact (hidle l c ret _ hpc).elim
  have hzero : s.inst.coroutinesNum = 0 := by
    rw [← hclean.counted, Finset.card_eq_zero, Finset.eq_empty_iff_forall_notMem]
    intro c hmem
    obtain ⟨hc, hlive⟩ := Instance.mem_unfinished.1 hmem
    exact hlive (hfinished c hc)
  refine ⟨hfinished, fun l id => ?_, hzero, fun c hc hopen => ?_, fun l hlt => ?_⟩
  · by_contra hne
    obtain ⟨c, hg⟩ := Option.ne_none_iff_exists'.1 hne
    have hat := (hl.stored l id c hg).1
    exact hat.2.1 (hfinished c hat.1)
  · obtain ⟨e, he, -⟩ := (hclean.reports c).ended (hfinished c hc)
    have hstatus : s.statuses c = [e.res] := by rw [statuses, he, List.map_singleton]
    refine ⟨e.res, hstatus, ?_⟩
    rw [← (hclean.reports c).queue hopen, ← hstatus]
    cases hclean.parted c (hfinished c hc) with
    | working l ret j hpc => exact (hidle l c ret j hpc).elim
    | lost l hp =>
      cases hpc : (s.inst.threads l).pc with
      | panicked why => exact (hclean.alive l why hpc).elim
      | _ =>
        rw [hpc] at hp
        cases hp
    | parted hsend =>
      rcases (hclean.reports c).told _ hsend (by simp) (by simp) with hsent | hclosed
      · exact hsent
      · rw [hopen] at hclosed
        cases hclosed
  · refine Instance.all_done hl hzero hrest (fun i hi hpoll => ?_) hlt
    by_contra hterm
    have hnone := hstuck i hi .stop (by simp)
    have hsome : (s.inst.threads i).pc.isPoll = true ∧ (s.inst.threads i).terminated = true :=
      ⟨by rw [hpoll]; rfl, by simpa using hterm⟩
    simp only [Instance.threadStep, if_pos hsome] at hnone
    cases hnone

instance (n : Nat) (s : Recorded S w α) (a : Action α) : Decidable (clean n s a) :=
  inferInstanceAs (Decidable (_ ∧ _ ∧ _))

/-- Coroutine 0 waits for a channel on thread 0, and its child runs on thread 1. -/
def waitsAndRuns (ch : ChanId) : List (Action Unit) :=
  [.thread 0 .start, .thread 1 .start, .thread 0 (.sched 0), .thread 0 .next, .thread 0 (.sched 0),
    .thread 0 (.user (.spawn 2)), .thread 0 (.user (.select [(.recv ch, RW.ofRead)])),
    .thread 0 (.register false 0 0), .thread 0 .next, .thread 0 .next, .thread 0 (.sched 0), .thread 0 .next,
    .thread 0 .next, .thread 0 (.sched 0), .thread 0 .next, .thread 0 (.sched 0), .thread 0 .next, .thread 0 .next,
    .thread 0 .next, .thread 1 (.sched 0), .thread 1 .next, .thread 1 .next, .thread 1 (.notify 1), .thread 1 .next,
    .thread 1 (.sched 0)]

/-- The child has called `mioco::shutdown` and yields, thread 0 gets `Shutdown` and kills coroutine 0, thread 1 gets
`Shutdown` and kills the child, which broadcasts `Terminate`, and the loop of thread 0 ends. -/
def wave : List (Action Unit) :=
  List.replicate 3 (.thread 1 .next) ++ [.thread 1 (.user .yieldNow), .thread 1 .next, .thread 1 .next,
    .thread 1 (.sched 0), .thread 1 .next, .thread 1 .next, .thread 1 (.sched 0), .thread 1 .next, .thread 1 .next,
    .thread 0 (.notify 0), .thread 0 .next, .thread 0 (.user (.finish .err))] ++ List.replicate 10 (.thread 0 .next) ++
  [.thread 1 (.notify 0), .thread 1 .next, .thread 1 (.user (.finish .err)), .thread 1 .next, .thread 1 .next,
    .thread 1 .next, .thread 0 (.notify 0), .thread 0 .stop, .thread 0 .next]

/-- Then the child's `exit_sender` sends, and the loop of thread 1 ends, too. -/
def waveEnds : List (Action Unit) :=
  wave ++ List.replicate 10 (.thread 1 .next) ++
    [.thread 1 (.notify 0), .thread 1 .stop, .thread 1 .next, .thread 1 .next]

theorem shutdown_complete_two : ∃ s : Recorded fifo 64 Unit,
    s.inst.coN = 2 ∧ s.inst.stuck ⟨2, true⟩ ∧ ShutDown 2 s := by
  have hsome : ((recorded fifo 64 Unit ⟨2, true⟩ (fun _ => none)).exec (waitsAndRuns (.user 0))
      (start fifo 64 (fun _ => none))).any (fun s₀ => (s₀.step ⟨2, true⟩ (.thread 1 (.user .shutdown))).any (fun s₁ =>
        ((recorded fifo 64 Unit ⟨2, true⟩ (fun _ => none)).okAlong (clean 2) (waitsAndRuns (.user 0))
          (start fifo 64 (fun _ => none))) &&
        (((recorded fifo 64 Unit ⟨2, true⟩ (fun _ => none)).startingAt s₁).okAlong (clean 2) waveEnds s₁) &&
        (((recorded fifo 64 Unit ⟨2, true⟩ (fun _ => none)).startingAt s₁).exec waveEnds s₁).any (fun s =>
          decide (s.inst.coN = 2 ∧ ∀ t : Nat, t < 2 → (s.inst.threads t).pc.isEnded = true)))) = true := by
    decide +kernel
  obtain ⟨s₀, hs₀, hsome⟩ := (Option.any_eq_true _ _).1 hsome
  obtain ⟨s₁, hs₁, hsome⟩ := (Option.any_eq_true _ _).1 hsome
  obtain ⟨hok, hsome⟩ := Bool.and_eq_true_iff.1 hsome
  obtain ⟨hok₀, hok₁⟩ := Bool.and_eq_true_iff.1 hok
  obtain ⟨s, hs, hand⟩ := (Option.any_eq_true _ _).1 hsome
  obtain ⟨hn, hended⟩ := of_decide_eq_true hand
  have hinit : (recorded fifo 64 Unit ⟨2, true⟩ (fun _ => none)).Reach (clean 2) (start fifo 64 (fun _ => none)) :=
    .init rfl
  have hr₀ := System.reach_exec (waitsAndRuns (.user 0)) _ s₀ hinit hok₀ hs₀
  have hr : ((recorded fifo 64 Unit ⟨2, true⟩ (fun _ => none)).startingAt s₁).Reach (clean 2) s :=
    System.reach_exec waveEnds s₁ s (.init rfl) hok₁ hs
  have hstuck : s.inst.stuck ⟨2, true⟩ := fun t ht a _ => Instance.threadStep_ended (hended t ht)
  exact ⟨s, hn, hstuck, (shutdown_complete (by decide) (by decide) rfl hr₀ hs₁ hr).2 hstuck⟩

/-- **Shutdown does not complete**: the child's `exit_sender` notifies the dead coroutine 0, which was waiting for it, on
an event loop that has ended, and the panic leaves `Terminate` in the queue of thread 1. -/
theorem shutdown_stuck : ¬ ∀ (S : Sched) (cfg : Config) (bound : Nat → Option Nat) (s₀ s₁ s : Recorded S 64 Unit)
    (t : Nat), 0 < cfg.threadNum → cfg.catchPanics = true →
    (recorded S 64 Unit cfg bound).Reach (fun s a => civil s a ∧ s.inst.tends a = true) s₀ →
    s₀.step cfg (.thread t (.user .shutdown)) = some s₁ →
    ((recorded S 64 Unit cfg bound).startingAt s₁).Reach (fun s a => civil s a ∧ s.inst.tends a = true) s →
    s.inst.stuck cfg → ShutDown cfg.threadNum s := by
  intro hall
  have hsome : ((recorded fifo 64 Unit ⟨2, true⟩ (fun _ => none)).exec (waitsAndRuns (.join 1))
      (start fifo 64 (fun _ => none))).any (fun s₀ => (s₀.step ⟨2, true⟩ (.thread 1 (.user .shutdown))).any (fun s₁ =>
        ((recorded fifo 64 Unit ⟨2, true⟩ (fun _ => none)).okAlong (fun s a => civil s a ∧ s.inst.tends a = true)
          (waitsAndRuns (.join 1)) (start fifo 64 (fun _ => none))) &&
        (((recorded fifo 64 Unit ⟨2, true⟩ (fun _ => none)).startingAt s₁).okAlong
          (fun s a => civil s a ∧ s.inst.tends a = true) (wave ++ List.replicate 4 (.thread 1 .next)) s₁) &&
        (((recorded fifo 64 Unit ⟨2, true⟩ (fun _ => none)).startingAt s₁).exec
          (wave ++ List.replicate 4 (.thread 1 .next)) s₁).any (fun s =>
            decide ((s.inst.threads 1).pc = .panicked .closedLoop ∧
              ∀ t : Nat, t < 2 → (s.inst.threads t).pc.isEnded = true)))) = true := by
    decide +kernel
  obtain ⟨s₀, hs₀, hsome⟩ := (Option.any_eq_true _ _).1 hsome
  obtain ⟨s₁, hs₁, hsome⟩ := (Option.any_eq_true _ _).1 hsome
  obtain ⟨hok, hsome⟩ := Bool.and_eq_true_iff.1 hsome
  obtain ⟨hok₀, hok₁⟩ := Bool.and_eq_true_iff.1 hok
  obtain ⟨s, hs, hand⟩ := (Option.any_eq_true _ _).1 hsome
  obtain ⟨hpc, hended⟩ := of_decide_eq_true hand
  have hinit : (recorded fifo 64 Unit ⟨2, true⟩ (fun _ => none)).Reach (fun s a => civil s a ∧ s.inst.tends a = true)
      (start fifo 64 (fun _ => none)) := .init rfl
  have hr₀ := System.reach_exec (waitsAndRuns (.join 1)) _ s₀ hinit hok₀ hs₀
  have hr : ((recorded fifo 64 Unit ⟨2, true⟩ (fun _ => none)).startingAt s₁).Reach
      (fun s a => civil s a ∧ s.inst.tends a = true) s :=
    System.reach_exec (wave ++ List.replicate 4 (.thread 1 .next)) s₁ s (.init rfl) hok₁ hs
  have hstuck : s.inst.stuck ⟨2, true⟩ := fun t ht a _ => Instance.threadStep_ended (hended t ht)
  have hdone := (hall fifo ⟨2, true⟩ _ s₀ s₁ s 1 (by decide) rfl hr₀ hs₁ hr hstuck).terminated 1 (by decide)
  rw [hpc] at hdone
  cases hdone

end Recorded
end Mioco

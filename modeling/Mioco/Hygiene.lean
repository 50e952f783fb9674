import Mioco.Registry
import Mioco.ShutsDown
/-!
# Registrations and the end of a coroutine (src/coroutine.rs, src/timer.rs, src/sync/mpsc.rs, src/mod.rs)

Every registration there is belongs to a source on the `blocked_on` list of a coroutine, as long as no list is dropped
with a source registered (`tidy`).  `coroutine_main_fn` does drop it, when it ends a coroutine that was Blocked.
-/
namespace Mioco

open Lib (System)

/-- The source that is registered next. -/
def Pc.upNext {α : Type} : Pc α → Option Src
  | .register _ (src :: _) _ _ => some src
  | _ => none

namespace Instance
variable {S : Sched} {w : Nat} {α : Type} {n : Nat} {s m s' : Instance S w α} {t c : Nat} {cfg : Config}
  {P : Nat → Reg → Event → Prop} {bound : Nat → Option Nat}

/-! ## Where a list of sources is dropped -/

/-- Source `src` is registered for coroutine `c` with loop `t`. -/
def registeredFor (s : Instance S w α) (t c : Nat) : Src → Bool
  | .recv ch => (s.chans ch).token.any fun r => decide (r.co = c)
  | .timer k => (s.timeouts k).any fun x => ((s.threads t).wheel x.1).any fun e =>
      decide (e.1 = x.2 ∧ e.2.co = c ∧ e.2.src = .timer k)
  | .io k => ((s.threads t).ios k).any fun r => decide (r.co = c)

/-- The timeout that timer `k` keeps is pending in loop `t`. -/
def pendingAt (s : Instance S w α) (k t : Nat) : Bool :=
  (s.timeouts k).any fun x => ((s.threads t).wheel x.1).any fun e => decide (e.1 = x.2 ∧ e.2.src = .timer k)

/-- **No source is left registered**: a coroutine ends with none of the sources it blocks on registered, a timer is
registered when its last timeout is not pending any more, and `deregister_all` runs on the coroutine's own thread. -/
def tidy (n : Nat) (s : Instance S w α) : Action α → Bool
  | .thread t (.user (.finish _)) =>
    match (s.threads t).pc with
    | .exec c _ .user => (s.cos c).blockedOn.all fun src => !s.registeredFor t c src
    | _ => true
  | .thread t (.register false _ _) =>
    match (s.threads t).pc.upNext with
    | some (.timer k) => (List.range n).all fun i => !s.pendingAt k i
    | _ => true
  | .thread t .next =>
    match (s.threads t).pc with
    | .deregister c _ => (s.cos c).blockedOn.isEmpty || decide ((s.cos c).handler = some t)
    | _ => true
  | _ => true

/-! ## The registrations -/

/-- Registration `r` is of a source on the `blocked_on` list of its coroutine, with the loop the coroutine is attached
to. -/
def Owns (s : Instance S w α) (r : Reg) : Prop :=
  r.src ∈ (s.cos r.co).blockedOn ∧ (s.cos r.co).handler = some r.loop

/-- Registration `r` is in one of the tables. -/
inductive Held (s : Instance S w α) (r : Reg) : Prop
  | chan (ch : ChanId) : (s.chans ch).token = some r → Held s r
  | io (t k : Nat) : (s.threads t).ios k = some r → Held s r
  | timer (t slot tick : Nat) : (s.threads t).wheel slot = some (tick, r) → Held s r

/-- **Every registration belongs to a coroutine that blocks on its source.** -/
structure Owned (n : Nat) (s : Instance S w α) : Prop where
  chan : ∀ ch r, (s.chans ch).token = some r → r.loop < n ∧ r.src = .recv ch ∧
    (s.chans ch).sender = some r.loop ∧ s.Owns r
  io : ∀ t k r, (s.threads t).ios k = some r → r.src = .io k ∧ r.loop = t ∧ s.Owns r
  timer : ∀ t slot tick r, (s.threads t).wheel slot = some (tick, r) → t < n ∧ r.loop = t ∧
    (∃ k, r.src = .timer k ∧ s.timeouts k = some (slot, tick)) ∧ s.Owns r
  todo : ∀ t c todo hit next, (s.threads t).pc = .register c todo hit next →
    ∀ src ∈ todo, src ∈ (s.cos c).blockedOn

theorem Owns.of_ties (h : ∀ c, (s'.cos c).ties = (s.cos c).ties) {r : Reg} (hr : s.Owns r) : s'.Owns r := by
  have hb : (s'.cos r.co).blockedOn = (s.cos r.co).blockedOn := congrArg Prod.fst (h r.co)
  have hh : (s'.cos r.co).handler = (s.cos r.co).handler := congrArg (fun x => x.2.1) (h r.co)
  unfold Owns
  rw [hb, hh]
  exact hr

/-- The edit of a coroutine that has no source registered. -/
theorem Owns.of_ne {co : Coroutine} {r : Reg} (hr : s.Owns r) (hne : r.co ≠ c) : (s.setCo c co).Owns r := by
  unfold Owns
  rw [setCo_ne _ _ hne]
  exact hr

namespace Owned

/-- No source of a coroutine that blocks on nothing is registered. -/
theorem not_owns (hb : (s.cos c).blockedOn = []) {r : Reg} (hr : s.Owns r) : r.co ≠ c := by
  rintro rfl
  have hmem := hr.1
  rw [hb] at hmem
  cases hmem

theorem not_owns' (hh : (s.cos c).handler = none) {r : Reg} (hr : s.Owns r) : r.co ≠ c := by
  rintro rfl
  have hat := hr.2
  rw [hh] at hat
  cases hat

theorem keeps (h : Owned n s) (hk : Keeps t P s s') : Owned n s' where
  chan ch r hr := by
    rw [hk.token] at hr
    obtain ⟨hi, hsrc, hsend, hown⟩ := h.chan ch r hr
    exact ⟨hi, hsrc, (hk.sender ch).trans hsend, hown.of_ties hk.ties⟩
  io i k r hr := by
    rw [hk.ios] at hr
    obtain ⟨hsrc, hl, hown⟩ := h.io i k r hr
    exact ⟨hsrc, hl, hown.of_ties hk.ties⟩
  timer i slot tick r hr := by
    rw [hk.wheel] at hr
    obtain ⟨hi, hl, hto, hown⟩ := h.timer i slot tick r hr
    rw [hk.timeouts]
    exact ⟨hi, hl, hto, hown.of_ties hk.ties⟩
  todo i c todo hit next hpc src hsrc := by
    rw [hk.blockedOn]
    by_cases hi : i = t
    · subst hi
      have hturn := hk.turn
      rw [hpc] at hturn
      generalize hold : (s.threads i).pc = old at hturn
      cases hturn with
      | stays => exact h.todo i c todo hit next hold src hsrc
      | registers =>
        rw [hk.blockedOn] at hsrc
        exact hsrc
      | elsewhere _ _ hb => cases hb
    · rw [hk.pc i hi] at hpc
      exact h.todo i c todo hit next hpc src hsrc

theorem owns (h : Owned n s) {r : Reg} (hr : s.Held r) : s.Owns r := by
  cases hr with
  | chan ch hr => exact (h.chan ch r hr).2.2.2
  | io t k hr => exact (h.io t k r hr).2.2
  | timer t slot tick hr => exact (h.timer t slot tick r hr).2.2.2

/-- The edit of one coroutine, which may lose sources or its thread only if none of them is registered. -/
theorem setCo (h : Owned n s) {co : Coroutine} (howns : ∀ r, s.Held r → (s.setCo c co).Owns r)
    (htodo : ∀ i todo hit next, (s.threads i).pc = .register c todo hit next → ∀ src ∈ todo, src ∈ co.blockedOn) :
    Owned n (s.setCo c co) where
  chan ch r hr := by
    obtain ⟨hi, hsrc, hsend, -⟩ := h.chan ch r hr
    exact ⟨hi, hsrc, hsend, howns r (.chan ch hr)⟩
  io i k r hr := ⟨(h.io i k r hr).1, (h.io i k r hr).2.1, howns r (.io i k hr)⟩
  timer i slot tick r hr := by
    obtain ⟨hi, hl, hto, -⟩ := h.timer i slot tick r hr
    exact ⟨hi, hl, hto, howns r (.timer i slot tick hr)⟩
  todo i c' todo hit next hpc src hsrc := by
    rw [cos_setCo]
    split
    · rename_i hc
      subst hc
      exact htodo i todo hit next hpc src hsrc
    · exact h.todo i c' todo hit next hpc src hsrc

/-- Nobody else registers the sources of a coroutine that thread `t` is engaged in. -/
theorem only (hc : Custody s) (hh : (s.cos c).handler = some t)
    (hpc : ∀ src todo hit next, (s.threads t).pc ≠ .register c (src :: todo) hit next) (i : Nat) (todo : List Src)
    (hit : Option (Event × Reg)) (next : AfterRegister) (hi : (s.threads i).pc = .register c todo hit next) :
    todo = [] := by
  cases todo with
  | nil => constructor
  | cons src rest =>
    have heng := hc.engaged i c none (by rw [hi]; rfl)
    have hit' : i = t := by
      have h1 := heng.attached
      rw [hh] at h1
      exact (Option.some.inj h1).symm
    subst hit'
    exact (hpc src rest hit next hi).elim

theorem select (h : Owned n s) (l : List (Src × RW)) {co : Coroutine}
    (hb : co.blockedOn = (s.cos c).blockedOn ++ l.map Prod.fst) (hh : co.handler = (s.cos c).handler)
    {srcs : Src → SrcCommon} : Owned n (Instance.setCo { s with srcs := srcs } c co) := by
  have hs : Owned n { s with srcs := srcs } := ⟨h.chan, h.io, h.timer, h.todo⟩
  refine hs.setCo (fun r hr => ?_) (fun i todo hit next hpc src hsrc => ?_)
  · have hown := hs.owns hr
    by_cases hne : r.co = c
    · subst hne
      unfold Owns
      rw [setCo_self, hb, hh]
      exact ⟨List.mem_append_left _ hown.1, hown.2⟩
    · exact hown.of_ne hne
  · rw [hb]
    exact List.mem_append_left _ (hs.todo i c todo hit next hpc src hsrc)

theorem spawn (h : Owned n s) (hc : Custody s) (children : List Nat) (id : Nat) : Owned n
    ((s.setCo c { s.cos c with children := children }).setCo s.coN (Coroutine.new id (some t))) := by
  have hs : Owned n (s.setCo c { s.cos c with children := children }) := by
    refine h.setCo (fun r hr => ?_) (fun i todo hit next hpc => h.todo i c todo hit next hpc)
    have hown := h.owns hr
    by_cases hne : r.co = c
    · subst hne
      unfold Owns
      rw [setCo_self]
      exact hown
    · exact hown.of_ne hne
  have hnone : (s.cos s.coN).handler = none := (hc.fresh s.coN (Nat.le_refl _)).1
  have hnone' : ((s.setCo c { s.cos c with children := children }).cos s.coN).handler = none := by
    rw [cos_setCo]
    split
    · rename_i hcn
      rw [← hcn]
      exact hnone
    · exact hnone
  refine hs.setCo (fun r hr => ?_) (fun i todo hit next hpc src hsrc => ?_)
  · have hown := hs.owns hr
    exact hown.of_ne (not_owns' hnone' hown)
  · cases todo with
    | nil => cases hsrc
    | cons src' rest =>
      have hat := (hc.engaged i s.coN none (by
        rw [show (s.threads i).pc = .register s.coN (src' :: rest) hit next from hpc]
        rfl)).attached
      rw [hnone] at hat
      cases hat

theorem finish (h : Owned n s) (hc : Custody s) {ret : Ret} {res : ExitStatus α}
    (hpc : (s.threads t).pc = .exec c ret .user) (hok : s.tidy n (.thread t (.user (.finish res))) = true) :
    Owned n (s.setCo c { s.cos c with blockedOn := [], state := .finished }) := by
  have hat := (hc.engaged t c (some .user) (by rw [hpc]; rfl)).attached
  have hnone : ∀ src ∈ (s.cos c).blockedOn, s.registeredFor t c src = false := by
    intro src hsrc
    simp only [tidy, hpc, List.all_eq_true, Bool.not_eq_eq_eq_not, Bool.not_true] at hok
    exact hok src hsrc
  refine h.setCo (fun r hr => ?_) (fun i todo hit next hi src hsrc => ?_)
  · have hown := h.owns hr
    refine hown.of_ne (fun hrc => ?_)
    subst hrc
    have hno := hnone r.src hown.1
    have hloop : r.loop = t := by
      have hr' := hown.2
      rw [hat] at hr'
      exact (Option.some.inj hr').symm
    cases hr with
    | chan ch hr =>
      rw [(h.chan ch r hr).2.1, registeredFor, hr, Option.any_some] at hno
      simp at hno
    | io i k hr =>
      obtain ⟨hsrc, hl, -⟩ := h.io i k r hr
      rw [← hl, hloop] at hr
      rw [hsrc, registeredFor, hr, Option.any_some] at hno
      simp at hno
    | timer i slot tick hr =>
      obtain ⟨-, hl, ⟨k, hsrc, hto⟩, -⟩ := h.timer i slot tick r hr
      rw [← hl, hloop] at hr
      rw [hsrc, registeredFor, hto, Option.any_some] at hno
      simp [hr, hsrc] at hno
  · have hnil := only hc hat (fun src todo hit next => by rw [hpc]; simp) i todo hit next hi
    rw [hnil] at hsrc
    cases hsrc

/-- `register_all` goes on to the next source. -/
theorem advance (h : Owned n s) {src : Src} {todo : List Src} {hit hit' : Option (Event × Reg)}
    {next : AfterRegister} (hpc : (s.threads t).pc = .register c (src :: todo) hit next) :
    Owned n (s.setPc t (.register c todo hit' next)) where
  chan := h.chan
  io i k r hr := by
    rw [setPc, threads_setThread] at hr
    split at hr
    · rename_i hi
      exact hi ▸ h.io t k r hr
    · exact h.io i k r hr
  timer i slot tick r hr := by
    rw [setPc, threads_setThread] at hr
    split at hr
    · rename_i hi
      exact hi ▸ h.timer t slot tick r hr
    · exact h.timer i slot tick r hr
  todo i c' todo' hit'' next' hi src' hsrc := by
    rw [setPc, threads_setThread] at hi
    split at hi
    · cases hi
      exact h.todo t c _ hit next hpc src' (List.mem_cons_of_mem _ hsrc)
    · exact h.todo i c' todo' hit'' next' hi src' hsrc

/-- The source that is next is on the list of its coroutine, which is attached to the thread. -/
theorem owns_newReg (h : Owned n s) (hc : Custody s) {src : Src} {todo : List Src} {hit : Option (Event × Reg)}
    {next : AfterRegister} (hpc : (s.threads t).pc = .register c (src :: todo) hit next) :
    s.Owns (s.newReg t c src) := by
  refine ⟨h.todo t c _ hit next hpc src List.mem_cons_self, ?_⟩
  exact (hc.engaged t c none (by rw [hpc]; rfl)).attached

theorem recv (h : Owned n s) (hc : Custody s) (ht : t < n) {ch : ChanId} {todo : List Src} {hit hit' : Option (Event × Reg)}
    {next : AfterRegister} (hpc : (s.threads t).pc = .register c (.recv ch :: todo) hit next) :
    Owned n ((s.setChan ch ((s.chans ch).register (s.newReg t c (.recv ch)) t).1).setPc t
      (.register c todo hit' next)) := by
  have hm : Owned n (s.setChan ch ((s.chans ch).register (s.newReg t c (.recv ch)) t).1) := by
    refine ⟨fun ch' r hr => ?_, h.io, h.timer, h.todo⟩
    rw [chans_setChan] at hr ⊢
    split at hr
    · rename_i hch
      rw [if_pos hch]
      unfold Chan.register at hr ⊢
      split at hr
      · cases hr
      · rename_i hzero
        cases hr
        rw [if_neg hzero]
        exact ⟨ht, by rw [hch]; rfl, rfl, h.owns_newReg hc hpc⟩
    · rename_i hch
      rw [if_neg hch]
      exact h.chan ch' r hr
  exact hm.advance hpc

theorem timeout (h : Owned n s) (hc : Custody s) (ht : t < n) {k slot tick : Nat} {todo : List Src}
    {hit : Option (Event × Reg)} {next : AfterRegister}
    (hpc : (s.threads t).pc = .register c (.timer k :: todo) hit next)
    (hok : s.tidy n (.thread t (.register false slot tick)) = true) :
    Owned n ({ s with timeouts := Function.update s.timeouts k (some (slot, tick)) }.setThread t { s.threads t with
      wheel := Function.update (s.threads t).wheel slot (some (tick, s.newReg t c (.timer k)))
      pc := .register c todo hit next }) := by
  have hnone : ∀ i < n, s.pendingAt k i = false := by
    intro i hi
    simp only [tidy, hpc, Pc.upNext, List.all_eq_true, List.mem_range, Bool.not_eq_eq_eq_not, Bool.not_true] at hok
    exact hok i hi
  -- the timeouts that are pending are of other timers
  have hother : ∀ i slot' tick' r, (s.threads i).wheel slot' = some (tick', r) → i < n ∧ r.loop = i ∧
      (∃ k', r.src = .timer k' ∧ Function.update s.timeouts k (some (slot, tick)) k' = some (slot', tick')) ∧
        s.Owns r := by
    intro i slot' tick' r hr
    obtain ⟨hi, hl, ⟨k', hsrc, hto⟩, hown⟩ := h.timer i slot' tick' r hr
    refine ⟨hi, hl, ⟨k', hsrc, ?_⟩, hown⟩
    rw [Function.update_of_ne ?_]
    · exact hto
    · rintro rfl
      have hno := hnone i hi
      rw [pendingAt, hto, Option.any_some, hr, Option.any_some] at hno
      simp [hsrc] at hno
  refine ⟨h.chan, fun i k' r hr => ?_, fun i slot' tick' r hr => ?_, fun i c' todo' hit' next' hi src' hsrc => ?_⟩
  · rw [threads_setThread] at hr
    split at hr
    · rename_i hi
      exact hi ▸ h.io t k' r hr
    · exact h.io i k' r hr
  · rw [threads_setThread] at hr
    split at hr
    · rename_i hi
      subst hi
      simp only [Function.update_apply] at hr
      split at hr
      · rename_i hslot
        cases hr
        refine ⟨ht, rfl, ⟨k, rfl, ?_⟩, h.owns_newReg hc hpc⟩
        show Function.update s.timeouts k (some (slot, tick)) k = _
        rw [Function.update_self, hslot]
      · exact hother i slot' tick' r hr
    · exact hother i slot' tick' r hr
  · rw [threads_setThread] at hi
    split at hi
    · cases hi
      exact h.todo t c _ hit next hpc src' (List.mem_cons_of_mem _ hsrc)
    · exact h.todo i c' todo' hit' next' hi src' hsrc

theorem source (h : Owned n s) (hc : Custody s) {k : Nat} {todo : List Src}
    {hit : Option (Event × Reg)} {next : AfterRegister}
    (hpc : (s.threads t).pc = .register c (.io k :: todo) hit next) :
    Owned n (s.setThread t { s.threads t with
      ios := Function.update (s.threads t).ios k (some (s.newReg t c (.io k))), pc := .register c todo hit next }) := by
  refine ⟨h.chan, fun i k' r hr => ?_, fun i slot' tick' r hr => ?_, fun i c' todo' hit' next' hi src' hsrc => ?_⟩
  · rw [threads_setThread] at hr
    split at hr
    · rename_i hi
      subst hi
      simp only [Function.update_apply] at hr
      split at hr
      · rename_i hk
        cases hr
        exact ⟨by rw [hk]; rfl, rfl, h.owns_newReg hc hpc⟩
      · exact h.io i k' r hr
    · exact h.io i k' r hr
  · rw [threads_setThread] at hr
    split at hr
    · rename_i hi
      exact hi ▸ h.timer t slot' tick' r hr
    · exact h.timer i slot' tick' r hr
  · rw [threads_setThread] at hi
    split at hi
    · cases hi
      exact h.todo t c _ hit next hpc src' (List.mem_cons_of_mem _ hsrc)
    · exact h.todo i c' todo' hit' next' hi src' hsrc

/-- What is left when coroutine `c` has no more to do with `src`. -/
theorem without (h : Owned n s) (hc : Custody s) {src : Src} {rest : List Src}
    (hb : (s.cos c).blockedOn = src :: rest) (hh : (s.cos c).handler = some t)
    (hfree : ∀ src todo hit next, (s.threads t).pc ≠ .register c (src :: todo) hit next)
    (hcos : s'.cos = (s.setCo c { s.cos c with blockedOn := rest }).cos) (hto : s'.timeouts = s.timeouts)
    (htok : ∀ ch r, (s'.chans ch).token = some r → (s.chans ch).token = some r ∧
      (s'.chans ch).sender = (s.chans ch).sender)
    (hio : ∀ i k r, (s'.threads i).ios k = some r → (s.threads i).ios k = some r)
    (hwh : ∀ i slot x, (s'.threads i).wheel slot = some x → (s.threads i).wheel slot = some x)
    (hpc : ∀ i, (s'.threads i).pc.isBusy = true → (s'.threads i).pc = (s.threads i).pc)
    (hgone : ∀ r, s'.Held r → r.co = c → r.src ≠ src) : Owned n s' := by
  have howns : ∀ r, s'.Held r → s.Owns r → s'.Owns r := by
    intro r hr hown
    unfold Owns
    rw [hcos]
    by_cases hrc : r.co = c
    · rw [hrc, setCo_self]
      have hne := hgone r hr hrc
      rw [Owns, hrc, hb] at hown
      exact ⟨(List.mem_cons.1 hown.1).resolve_left hne, hown.2⟩
    · exact hown.of_ne hrc
  refine ⟨fun ch r hr => ?_, fun i k r hr => ?_, fun i slot tick r hr => ?_, fun i c' todo hit next hi src' hsrc => ?_⟩
  · obtain ⟨hr', hsend⟩ := htok ch r hr
    obtain ⟨hi, hsrc, hl, hown⟩ := h.chan ch r hr'
    exact ⟨hi, hsrc, hsend.trans hl, howns r (.chan ch hr) hown⟩
  · obtain ⟨hsrc, hl, hown⟩ := h.io i k r (hio i k r hr)
    exact ⟨hsrc, hl, howns r (.io i k hr) hown⟩
  · obtain ⟨hi, hl, hk, hown⟩ := h.timer i slot tick r (hwh i slot _ hr)
    rw [hto]
    exact ⟨hi, hl, hk, howns r (.timer i slot tick hr) hown⟩
  · rw [hpc i (by rw [hi]; rfl)] at hi
    rw [hcos, cos_setCo]
    split
    · rename_i hcc
      subst hcc
      rw [only hc hh hfree i todo hit next hi] at hsrc
      cases hsrc
    · exact h.todo i c' todo hit next hi src' hsrc

/-- The registrations of coroutine `c` are with the loop it is attached to. -/
theorem loop_eq (hh : (s.cos c).handler = some t) {r : Reg} (hown : s.Owns r) (hrc : r.co = c) : r.loop = t := by
  have hat := hown.2
  rw [hrc, hh] at hat
  exact (Option.some.inj hat).symm

theorem deregister_recv (h : Owned n s) (hc : Custody s) {ch : ChanId} {rest : List Src}
    (hfree : ∀ src todo hit next, (s.threads t).pc ≠ .register c (src :: todo) hit next)
    (hb : (s.cos c).blockedOn = .recv ch :: rest) (hh : (s.cos c).handler = some t) :
    Owned n ((s.setCo c { s.cos c with blockedOn := rest }).deregisterSrc t (.recv ch)) := by
  have hchans : ∀ ch', (((s.setCo c { s.cos c with blockedOn := rest }).deregisterSrc t (.recv ch)).chans ch') =
      if ch' = ch then (s.chans ch).deregister else s.chans ch' := fun ch' => chans_setChan ch ch' _
  have htok : ∀ ch' r, (((s.setCo c { s.cos c with blockedOn := rest }).deregisterSrc t (.recv ch)).chans ch').token =
      some r → ch' ≠ ch ∧ (s.chans ch').token = some r := by
    intro ch' r hr
    rw [hchans] at hr
    split at hr
    · cases hr
    · rename_i hne
      exact ⟨hne, hr⟩
  refine h.without hc hb hh hfree rfl rfl (fun ch' r hr => ?_) (fun _ _ _ hr => hr) (fun _ _ _ hr => hr)
    (fun _ _ => rfl) (fun r hr hrc => ?_)
  · refine ⟨(htok ch' r hr).2, ?_⟩
    rw [hchans, if_neg (htok ch' r hr).1]
  · cases hr with
    | chan ch' hr =>
      obtain ⟨hne, hr⟩ := htok ch' r hr
      rw [(h.chan ch' r hr).2.1]
      exact fun he => hne (by cases he; rfl)
    | io i k hr =>
      rw [(h.io i k r hr).1]
      simp
    | timer i slot tick hr =>
      obtain ⟨-, -, ⟨k, hsrc, -⟩, -⟩ := h.timer i slot tick r hr
      rw [hsrc]
      simp

/-- What `clear_timeout` leaves in the wheels: no entry of that slot and tick in its own. -/
theorem clearTimeout_threads (x : Option (Nat × Nat)) (i : Nat) :
    ((s.clearTimeout t x).threads i).ios = (s.threads i).ios ∧ ((s.clearTimeout t x).threads i).pc = (s.threads i).pc ∧
      ∀ slot e, ((s.clearTimeout t x).threads i).wheel slot = some e → (s.threads i).wheel slot = some e ∧
        (i = t → x ≠ some (slot, e.1)) := by
  simp only [clearTimeout]
  split
  · exact ⟨rfl, rfl, fun slot e he => ⟨he, fun _ hno => by cases hno⟩⟩
  · rename_i slot₀ tick₀
    split
    · rw [threads_setThread]
      split
      · rename_i hi
        subst hi
        refine ⟨rfl, rfl, fun slot e he => ?_⟩
        simp only [Function.update_apply] at he
        split at he
        · cases he
        · rename_i hne
          exact ⟨he, fun _ hno => hne (by cases hno; rfl)⟩
      · rename_i hi
        exact ⟨rfl, rfl, fun slot e he => ⟨he, fun hit => (hi hit).elim⟩⟩
    · rename_i hany
      refine ⟨rfl, rfl, fun slot e he => ⟨he, fun hi hx => hany ?_⟩⟩
      subst hi
      cases hx
      rw [he, Option.any_some]
      exact decide_eq_true rfl

theorem clearTimeout_cos (x : Option (Nat × Nat)) : (s.clearTimeout t x).cos = s.cos := by
  simp only [clearTimeout]
  split
  · constructor
  · split <;> constructor

theorem deregister_timer (h : Owned n s) (hc : Custody s) {k : Nat} {rest : List Src}
    (hfree : ∀ src todo hit next, (s.threads t).pc ≠ .register c (src :: todo) hit next)
    (hb : (s.cos c).blockedOn = .timer k :: rest) (hh : (s.cos c).handler = some t) :
    Owned n ((s.setCo c { s.cos c with blockedOn := rest }).clearTimeout t (s.timeouts k)) := by
  have hth := clearTimeout_threads (s := s.setCo c { s.cos c with blockedOn := rest }) (t := t) (s.timeouts k)
  have hworld := clearTimeout_world (s.setCo c { s.cos c with blockedOn := rest }) t (s.timeouts k)
  rw [setCo_world] at hworld
  have hch : ∀ ch, ((s.setCo c { s.cos c with blockedOn := rest }).clearTimeout t (s.timeouts k)).chans ch = s.chans ch :=
    congrFun (congrArg Prod.fst hworld)
  refine h.without hc hb hh hfree (clearTimeout_cos _) (congrArg (fun x => x.2.2.2.1) hworld) (fun ch r hr => ?_)
    (fun i k' r hr => ?_) (fun i slot x hr => ((hth i).2.2 slot x hr).1) (fun i _ => (hth i).2.1) (fun r hr hrc => ?_)
  · rw [hch] at hr ⊢
    exact ⟨hr, rfl⟩
  · rw [(hth i).1] at hr
    exact hr
  · cases hr with
    | chan ch hr =>
      rw [hch] at hr
      rw [(h.chan ch r hr).2.1]
      simp
    | io i k' hr =>
      rw [(hth i).1] at hr
      rw [(h.io i k' r hr).1]
      simp
    | timer i slot tick hr =>
      obtain ⟨hr', hno⟩ := (hth i).2.2 slot (tick, r) hr
      obtain ⟨-, hl, ⟨k', hsrc, hto⟩, hown⟩ := h.timer i slot tick r hr'
      rw [hsrc]
      intro he
      cases he
      exact hno (hl.symm.trans (loop_eq hh hown hrc)) hto

theorem deregister_io (h : Owned n s) (hc : Custody s) {k : Nat} {rest : List Src}
    (hfree : ∀ src todo hit next, (s.threads t).pc ≠ .register c (src :: todo) hit next)
    (hb : (s.cos c).blockedOn = .io k :: rest) (hh : (s.cos c).handler = some t) {th : Thread S α}
    (hio : ∀ k' r, th.ios k' = some r → (s.threads t).ios k' = some r ∧ k' ≠ k)
    (hwh : th.wheel = (s.threads t).wheel) (hpc : th.pc.isBusy = true → th.pc = (s.threads t).pc) :
    Owned n ((s.setCo c { s.cos c with blockedOn := rest }).setThread t th) := by
  have hios : ∀ i k' r, (((s.setCo c { s.cos c with blockedOn := rest }).setThread t th).threads i).ios k' = some r →
      (s.threads i).ios k' = some r ∧ (i = t → k' ≠ k) := by
    intro i k' r hr
    rw [threads_setThread] at hr
    split at hr
    · rename_i hi
      exact ⟨hi ▸ (hio k' r hr).1, fun _ => (hio k' r hr).2⟩
    · rename_i hi
      exact ⟨hr, fun hit => (hi hit).elim⟩
  have hwheel : ∀ i, (((s.setCo c { s.cos c with blockedOn := rest }).setThread t th).threads i).wheel =
      (s.threads i).wheel := by
    intro i
    rw [threads_setThread]
    split
    · rename_i hi
      rw [hi, hwh]
    · constructor
  refine h.without hc hb hh hfree rfl rfl (fun _ _ hr => ⟨hr, rfl⟩) (fun i k' r hr => (hios i k' r hr).1)
    (fun i slot x hx => ?_) (fun i hi => ?_) (fun r hr hrc => ?_)
  · rw [hwheel] at hx
    exact hx
  · rw [threads_setThread] at hi ⊢
    split at hi
    · rename_i hit
      rw [if_pos hit, hit]
      exact hpc hi
    · rename_i hit
      rw [if_neg hit]
      constructor
  · cases hr with
    | chan ch hr =>
      rw [(h.chan ch r hr).2.1]
      simp
    | io i k' hr =>
      obtain ⟨hr', hne⟩ := hios i k' r hr
      obtain ⟨hsrc, hl, hown⟩ := h.io i k' r hr'
      rw [hsrc]
      intro he
      cases he
      exact hne (hl.symm.trans (loop_eq hh hown hrc)) rfl
    | timer i slot tick hr =>
      rw [hwheel] at hr
      obtain ⟨-, -, ⟨k', hsrc, -⟩, -⟩ := h.timer i slot tick r hr
      rw [hsrc]
      simp

theorem deregister (h : Owned n s) (hc : Custody s) {src : Src} {rest : List Src} {next : AfterDeregister}
    (hpc : (s.threads t).pc = .deregister c next) (hb : (s.cos c).blockedOn = src :: rest)
    (hh : (s.cos c).handler = some t) :
    Owned n ((s.setCo c { s.cos c with blockedOn := rest }).deregisterSrc t src) := by
  have hfree : ∀ src todo hit next, (s.threads t).pc ≠ .register c (src :: todo) hit next := by
    intro src todo hit next
    rw [hpc]
    simp
  cases src with
  | recv ch => exact h.deregister_recv hc hfree hb hh
  | timer k => exact h.deregister_timer hc hfree hb hh
  | io k =>
    simp only [deregisterSrc]
    split
    · refine h.deregister_io hc hfree hb hh (fun k' r hr => ?_) rfl (fun _ => rfl)
      simp only [Function.update_apply] at hr
      split at hr
      · cases hr
      · rename_i hne
        exact ⟨hr, hne⟩
    · rename_i hnone
      refine h.deregister_io hc hfree hb hh (fun k' r hr => ⟨hr, ?_⟩) rfl (fun hbusy => by cases hbusy)
      rintro rfl
      exact hnone (by rw [setCo_threads, show (s.threads t).ios k' = some r from hr]; rfl)

theorem detach (h : Owned n s) (hb : (s.cos c).blockedOn = []) (o : Option Nat) (id : Nat) :
    Owned n (s.setCo c { s.cos c with id := id, handler := o }) := by
  refine h.setCo (fun r hr => ?_) (fun i todo hit next hpc src hsrc => h.todo i c todo hit next hpc src hsrc)
  have hown := h.owns hr
  exact hown.of_ne (not_owns hb hown)

theorem attach (h : Owned n s) (hh : (s.cos c).handler = none) (id : Nat) :
    Owned n (s.setCo c { s.cos c with id := id, handler := some t }) := by
  refine h.setCo (fun r hr => ?_) (fun i todo hit next hpc src hsrc => h.todo i c todo hit next hpc src hsrc)
  have hown := h.owns hr
  exact hown.of_ne (not_owns' hh hown)

theorem fires (h : Owned n s) (slot : Nat) : Owned n
    (s.setThread t { s.threads t with wheel := Function.update (s.threads t).wheel slot none }) := by
  refine ⟨h.chan, fun i k r hr => ?_, fun i slot' tick r hr => ?_, fun i c todo hit next hpc => ?_⟩
  · rw [threads_setThread] at hr
    split at hr
    · rename_i hi
      exact hi ▸ h.io t k r hr
    · exact h.io i k r hr
  · rw [threads_setThread] at hr
    split at hr
    · rename_i hi
      subst hi
      simp only [Function.update_apply] at hr
      split at hr
      · cases hr
      · exact h.timer i slot' tick r hr
    · exact h.timer i slot' tick r hr
  · rw [threads_setThread] at hpc
    split at hpc
    · rename_i hi
      exact h.todo t c todo hit next hpc
    · exact h.todo i c todo hit next hpc

theorem step (h : Owned cfg.threadNum s) (hc : Custody s) {a : Action α} (hok : s.tidy cfg.threadNum a = true)
    (hst : s.step cfg a = some s') : Owned cfg.threadNum s' := by
  have hlt : ∀ t b, a = .thread t b → t < cfg.threadNum := by
    intro t b ha
    subst ha
    exact (step_thread hst).1
  have hentry : Entry (fun _ _ _ => True) s a s' :=
    step_entry (fun _ _ _ _ _ _ => trivial) (fun _ _ _ _ _ _ _ => trivial) (fun _ _ _ _ _ _ _ _ _ => trivial) hst
  cases hentry with
  | keeps t hk => exact h.keeps hk
  | fires t slot tick r hpc hw hk => exact (h.fires slot).keeps hk
  | select t c ret l hpc =>
    refine Owned.keeps (P := fun _ _ _ => True) ?_ (keeps_leave ret)
    apply h.select l <;> constructor
  | spawn t c ret id children hpc hk => exact (h.spawn hc children id).keeps hk
  | finish t c ret res hpc hk => exact (h.finish hc hpc hok).keeps hk
  | recv t c ch todo hit next due slot tick hpc => exact h.recv hc (hlt t _ rfl) hpc
  | due t c k todo hit next slot tick hpc => exact h.advance hpc
  | timer t c k todo hit next slot tick hpc hw => exact h.timeout hc (hlt t _ rfl) hpc hok
  | io t c k todo hit next due slot tick hpc hi => exact h.source hc hpc
  | deregister t c src rest next hpc hb =>
    refine h.deregister hc hpc hb ?_
    simpa [tidy, hpc, hb] using hok
  | detach t c l k hpc hb hh hk => exact (h.detach hb none (s.cos c).id).keeps hk
  | attach t c id rest hin hpc hk =>
    refine (h.attach (hc.carried t c ?_) id).keeps hk
    rw [Thread.carried, hin]
    simp [Message.carries]

theorem reach (h : (mioco S w α cfg bound).Reach (fun s a => s.tidy cfg.threadNum a = true) s) :
    Owned cfg.threadNum s := by
  refine h.invariant_of Custody (Owned cfg.threadNum) (fun _ hr => .reach hr) (fun s hs => ?_)
    (fun _ _ _ hc hr hok hst _ => hr.step hc hok hst)
  cases (show s = start S w bound from hs)
  have hth : ∀ i, ((start S w bound : Instance S w α).threads i).ios = (fun _ => none) ∧
      ((start S w bound : Instance S w α).threads i).wheel = (fun _ => none) ∧
        ((start S w bound : Instance S w α).threads i).pc = .starting := by
    intro i
    simp only [start, Function.update_apply]
    split <;> exact ⟨rfl, rfl, rfl⟩
  refine ⟨fun ch r hr => ?_, fun i k r hr => ?_, fun i slot tick r hr => ?_, fun i c todo hit next hpc => ?_⟩
  · cases ch <;> cases hr
  · rw [(hth i).1] at hr
    cases hr
  · rw [(hth i).2.1] at hr
    cases hr
  · rw [(hth i).2.2] at hpc
    cases hpc

end Owned

/-! ## Nobody notifies the dead -/

/-- **Hygiene**: no registration is of a coroutine that has ended, and who sends a message or drops the last sender
notifies none, and writes to no event loop that is gone. -/
structure Hygienic (s : Instance S w α) : Prop where
  held : ∀ r, s.Held r → (s.cos r.co).state ≠ .finished
  notify : ∀ ch l r, (s.chans ch).maybeNotifyReceiver = .channelMsg l r →
    (s.cos r.co).state ≠ .finished ∧ (s.threads l).isOpen = true

/-- A coroutine that owns a registration has not ended. -/
theorem Owns.live (hc : Custody s) {r : Reg} (h : s.Owns r) : (s.cos r.co).state ≠ .finished := by
  intro hfin
  have hmem := h.1
  rw [hc.cleared r.co hfin] at hmem
  cases hmem

/-- The event loop that a coroutine is registered with is there, unless its thread has panicked. -/
theorem Owns.isOpen (hr : (mioco S w α cfg bound).Reach System.anyStep s) {r : Reg} (h : s.Owns r)
    (hpanic : (s.threads r.loop).pc.isPanicked = false) : (s.threads r.loop).isOpen = true := by
  have hc : Custody s := .reach hr
  by_contra hshut
  have hended := closedLast_reach hr r.loop (Bool.eq_false_of_not_eq_true hshut)
  have hdone : (s.threads r.loop).pc = .done := by
    cases hpc : (s.threads r.loop).pc with
    | done => constructor
    | panicked why =>
      rw [hpc] at hpanic
      cases hpanic
    | _ =>
      rw [hpc] at hended
      cases hended
  -- the loops end when there is no coroutine left to run
  have hmem : r.co ∈ s.unfinished := mem_unfinished.2 ⟨hc.lt_of_handler h.2, h.live hc⟩
  rw [ended_last hr (.inr hdone)] at hmem
  exact absurd hmem (Finset.notMem_empty r.co)

/-- **No registration survives its coroutine**, in a run where none of the sources it blocks on is registered when it
ends. -/
theorem hygiene (h : (mioco S w α cfg bound).Reach (fun s a => s.tidy cfg.threadNum a = true) s)
    (hpanic : ∀ t < cfg.threadNum, (s.threads t).pc.isPanicked = false) : s.Hygienic := by
  have hreg := Owned.reach h
  have hany : (mioco S w α cfg bound).Reach System.anyStep s := h.mono (fun _ _ _ => trivial)
  have hc : Custody s := .reach hany
  refine ⟨fun r hr => (hreg.owns hr).live hc, fun ch l r hn => ?_⟩
  unfold Chan.maybeNotifyReceiver at hn
  split at hn
  · cases hn
  · rename_i htok hsend
    cases hn
    obtain ⟨hi, -, hl, hown⟩ := hreg.chan ch r htok
    rw [hsend] at hl
    cases hl
    exact ⟨hown.live hc, hown.isOpen hany (hpanic r.loop hi)⟩
  · cases hn

/-- Coroutine 0 selects a channel and a timer, is sent a message, and returns. -/
def wokenAndEnds : List (Action Unit) :=
  [.thread 0 .start, .thread 0 (.sched 0), .thread 0 .next, .thread 0 (.sched 0),
    .thread 0 (.user (.select [(.recv (.user 0), RW.ofRead), (.timer 0, RW.ofRead)])),
    .thread 0 (.register false 0 0), .thread 0 (.register false 3 7), .thread 0 .next, .thread 0 .next,
    .thread 0 (.sched 0), .thread 0 .next, .thread 0 .next, .thread 0 .next, .sender 0 0 (.send (.ok ()) false),
    .sender 0 0 .stdSend, .sender 0 0 .fetchAdd, .sender 0 0 .notify, .thread 0 (.notify 0), .thread 0 .next,
    .thread 0 .next, .thread 0 .next, .thread 0 (.sched 0), .thread 0 (.user (.finish (.ok ())))]

theorem hygiene_woken : ∃ s : Instance fifo 64 Unit, (s.cos 0).state = .finished ∧ (s.cos 0).sel = 1 ∧ s.Hygienic := by
  have hok : (mioco fifo 64 Unit ⟨1, true⟩ (fun _ => none)).okAlong (fun s a => s.tidy 1 a = true) wokenAndEnds
      (start fifo 64 (fun _ => none)) = true := by decide +kernel
  have hsome : ((mioco fifo 64 Unit ⟨1, true⟩ (fun _ => none)).exec wokenAndEnds (start fifo 64 (fun _ => none))).any
      (fun s => decide ((s.cos 0).state = .finished ∧ (s.cos 0).sel = 1 ∧ (s.threads 0).pc.isPanicked = false)) =
        true := by
    decide +kernel
  obtain ⟨s, hs, hand⟩ := (Option.any_eq_true _ _).1 hsome
  obtain ⟨hfin, hsel, hpc⟩ := of_decide_eq_true hand
  have hinit : (mioco fifo 64 Unit ⟨1, true⟩ (fun _ => none)).Reach (fun s a => s.tidy 1 a = true)
      (start fifo 64 (fun _ => none)) := .init rfl
  have hr := System.reach_exec wokenAndEnds _ s hinit hok hs
  refine ⟨s, hfin, hsel, hygiene hr (fun t ht => ?_)⟩
  have h0 : t = 0 := by
    have hone : t < 1 := ht
    omega
  rw [h0]
  exact hpc

/-- **A registration survives its coroutine**: `coroutine_main_fn` clears the list of sources and leaves them registered
when the coroutine was Blocked; then a sender notifies it on an event loop that is gone. -/
theorem not_hygienic : ¬ ∀ (S : Sched) (cfg : Config) (bound : Nat → Option Nat) (s : Instance S 64 Unit),
    (mioco S 64 Unit cfg bound).Reach System.anyStep s → (∀ t < cfg.threadNum, (s.threads t).pc.isPanicked = false) →
      s.Hygienic := by
  intro hall
  have hsome : ((mioco fifo 64 Unit ⟨2, true⟩ (fun _ => none)).exec
      (Recorded.waitsAndRuns (.user 0) ++ .thread 1 (.user .shutdown) :: Recorded.waveEnds)
      (start fifo 64 (fun _ => none))).any (fun s => decide ((s.cos 0).state = .finished ∧
        (∀ t : Nat, t < 2 → (s.threads t).pc.isPanicked = false) ∧ (s.threads 0).isOpen = false ∧
        (s.chans (.user 0)).sender = some 0) && (s.chans (.user 0)).token.any fun r => decide (r.co = 0)) = true := by
    decide +kernel
  obtain ⟨s, hs, hand⟩ := (Option.any_eq_true _ _).1 hsome
  obtain ⟨hst, htok⟩ := Bool.and_eq_true_iff.1 hand
  obtain ⟨hfin, hpanic, -, -⟩ := of_decide_eq_true hst
  obtain ⟨r, hr, hco⟩ := (Option.any_eq_true _ _).1 htok
  have hinit : (mioco fifo 64 Unit ⟨2, true⟩ (fun _ => none)).Reach System.anyStep (start fifo 64 (fun _ => none)) :=
    .init rfl
  have hreach := System.reach_exec_of_forall _ _ s hinit (fun _ _ _ => trivial) hs
  refine (hall fifo ⟨2, true⟩ _ s hreach hpanic).held r (.chan (.user 0) hr) ?_
  rw [of_decide_eq_true hco]
  exact hfin

end Instance
end Mioco

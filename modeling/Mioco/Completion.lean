import Mioco.Custody
/-!
# Every coroutine completes at most once (src/coroutine.rs, src/mod.rs)

`Custody` holds in every run, whatever the scheduler and the code of the coroutines do: a coroutine runs on the thread
it is attached to and on no other, a `Migration` carries one that is attached to none, and the exit status goes through
its channel after the coroutine has ended, at most once.
-/
namespace Mioco

open Lib (System)

/-- The channel of an exit status: unbounded, one sender, at most one message. -/
structure ExitChan {w : Nat} {α τ κ : Type} (ch : Chan w α τ κ) : Prop where
  bound : ch.bound = none
  sender : ∃ pc, ch.senders = [pc] ∧ ∀ v b, pc = .sending v b → ch.queue = []
  queue : ch.queue.length ≤ 1

/-- Nothing was sent through it. -/
structure Unsent {w : Nat} {α τ κ : Type} (ch : Chan w α τ κ) : Prop where
  sender : ch.senders = [.idle]
  queue : ch.queue = []

theorem ExitChan.same {w : Nat} {α τ κ : Type} {ch ch' : Chan w α τ κ} (h : ExitChan ch) (hs : SameExit ch ch') :
    ExitChan ch' where
  bound := hs.bound.trans h.bound
  sender := by
    rw [hs.senders, hs.queue]
    exact h.sender
  queue := by
    rw [hs.queue]
    exact h.queue

theorem Unsent.same {w : Nat} {α τ κ : Type} {ch ch' : Chan w α τ κ} (h : Unsent ch) (hs : SameExit ch ch') :
    Unsent ch' := ⟨hs.senders.trans h.sender, hs.queue.trans h.queue⟩

/-- **A step of `exit_sender`**, with `res` the status still to be sent. -/
inductive ExitMove {w : Nat} {α τ κ : Type} (ch : Chan w (ExitStatus α) τ κ) (res : Option (ExitStatus α))
    (ch' : Chan w (ExitStatus α) τ κ) : Prop
  | send (v : ExitStatus α) : res = some v → ch.senders = [.idle] → ch'.senders = [.sending v false] →
      ch'.queue = ch.queue → ExitMove ch res ch'
  | refused (v : ExitStatus α) (b : Bool) : ch.senders = [.sending v b] → ch.receiver = false → ch'.senders = [.idle] →
      ch'.queue = ch.queue → ExitMove ch res ch'
  | stdSend (v : ExitStatus α) (b : Bool) : ch.senders = [.sending v b] → ch'.senders = [.sent] →
      ch'.queue = ch.queue ++ [v] → ExitMove ch res ch'
  | other (pc pc' : SenderPc w (ExitStatus α)) : ch.senders = [pc] → (∀ v b, pc ≠ .sending v b) →
      (pc = .idle → res = none) → ch'.senders = [pc'] → (∀ v b, pc' ≠ .sending v b) → (pc' = .idle → pc ≠ .idle) →
      ch'.queue = ch.queue → ExitMove ch res ch'

theorem ExitMove.same {w : Nat} {α τ κ : Type} {ch ch' ch'' : Chan w (ExitStatus α) τ κ} {res : Option (ExitStatus α)}
    (h : ExitMove ch res ch') (hs : SameExit ch' ch'') : ExitMove ch res ch'' := by
  cases h with
  | send v hres hidle hto hq => exact .send v hres hidle (hs.senders.trans hto) (hs.queue.trans hq)
  | refused v b hsend hr hto hq => exact .refused v b hsend hr (hs.senders.trans hto) (hs.queue.trans hq)
  | stdSend v b hsend hto hq => exact .stdSend v b hsend (hs.senders.trans hto) (hs.queue.trans hq)
  | other pc pc' hat hno hi hto hno' hi' hq =>
    exact .other pc pc' hat hno hi (hs.senders.trans hto) hno' hi' (hs.queue.trans hq)

theorem exit_move {w : Nat} {α τ κ : Type} {ch ch' : Chan w (ExitStatus α) τ κ} {res : Option (ExitStatus α)}
    {pc : SenderPc w (ExitStatus α)} {n : Notify τ κ} (hs : ch.senders = [pc]) (hd : pc ≠ .dropped)
    (h : ch.senderStep 0 (exitAct res pc) = some (ch', n)) :
    ExitMove ch res ch' ∧ ch'.bound = ch.bound ∧ ch'.receiver = ch.receiver := by
  cases pc with
  | idle =>
    cases res with
    | some v =>
      simp only [exitAct, Chan.senderStep, hs, List.getElem?_cons_zero] at h
      cases h
      exact ⟨.send v rfl hs (by simp [Chan.setPc, hs]) rfl, rfl, rfl⟩
    | none =>
      simp only [exitAct, Chan.senderStep, hs, List.getElem?_cons_zero] at h
      cases h
      refine ⟨.other _ _ hs (by simp) (fun _ => rfl) (by simp [Chan.setPc]; rfl) ?_ ?_ rfl, rfl, rfl⟩
      · intro v b
        split <;> simp
      · split <;> simp
  | sending v b =>
    simp only [exitAct, Chan.senderStep, hs, List.getElem?_cons_zero] at h
    split at h
    · rename_i hr
      cases h
      exact ⟨.refused v b hs (by simpa using hr) (by simp [Chan.setPc, hs]) rfl, rfl, rfl⟩
    · split at h
      · cases h
        exact ⟨.stdSend v b hs (by simp [Chan.setPc]) rfl, rfl, rfl⟩
      · cases h
  | dropped => exact (hd rfl).elim
  | _ =>
    simp only [exitAct, Chan.senderStep, hs, List.getElem?_cons_zero] at h
    cases h
    exact ⟨.other _ _ hs (by simp) (by simp) (by simp [Chan.setPc, Chan.fetchAdd, hs]; rfl) (by simp) (by simp) rfl, rfl, rfl⟩

theorem ExitChan.exit {w : Nat} {α τ κ : Type} {ch ch' : Chan w (ExitStatus α) τ κ} {res : Option (ExitStatus α)}
    (h : ExitChan ch) (hm : ExitMove ch res ch') (hb : ch'.bound = ch.bound) (hun : res.isSome = true → Unsent ch) :
    ExitChan ch' := by
  have hq := h.queue
  cases hm with
  | send v hres hs hs' hq' =>
    have hempty := (hun (by rw [hres]; rfl)).queue
    exact ⟨hb.trans h.bound, ⟨_, hs', fun _ _ _ => hq'.trans hempty⟩, by rw [hq']; exact hq⟩
  | refused v b hs hr hs' hq' =>
    exact ⟨hb.trans h.bound, ⟨_, hs', fun _ _ he => by cases he⟩, by rw [hq']; exact hq⟩
  | stdSend v b hs hs' hq' =>
    obtain ⟨pc, hpc, hsend⟩ := h.sender
    rw [hs] at hpc
    cases hpc
    have hempty := hsend v b rfl
    exact ⟨hb.trans h.bound, ⟨_, hs', fun _ _ he => by cases he⟩, by rw [hq', hempty]; exact Nat.le_refl _⟩
  | other pc pc' hs hns hi hs' hns' _ hq' =>
    exact ⟨hb.trans h.bound, ⟨pc', hs', fun v b he => (hns' v b he).elim⟩, by rw [hq']; exact hq⟩

namespace Instance
variable {S : Sched} {w : Nat} {α : Type} {s m s' : Instance S w α} {t c : Nat} {cfg : Config}

/-- What goes with thread `t` being engaged in coroutine `c`. -/
structure EngagedIn (s : Instance S w α) (t c : Nat) (j : Option (Job α)) : Prop where
  attached : (s.cos c).handler = some t
  live : j.all Job.live = true → (s.cos c).state ≠ .finished
  ended : j.all Job.live = false → (s.cos c).state = .finished
  unsent : j.all Job.reported = false → Unsent (s.chans (.join c)) ∧ s.received (.join c) = 0

/-- **Who runs what, and what has been sent.** -/
structure Custody (s : Instance S w α) : Prop where
  cleared : Cleared s
  engaged : ∀ t c j, (s.threads t).pc.engaged = some (c, j) → EngagedIn s t c j
  fresh : ∀ c, s.coN ≤ c → (s.cos c).handler = none ∧ (s.cos c).state ≠ .finished ∧ ∀ t, (s.threads t).carried c = 0
  carried : ∀ t c, 0 < (s.threads t).carried c → (s.cos c).handler = none
  once : ∀ c t t', 0 < (s.threads t).carried c → 0 < (s.threads t').carried c → t = t'
  one : ∀ t c, (s.threads t).carried c ≤ 1
  exits : ∀ c, ExitChan (s.chans (.join c))
  unsent : ∀ c, (s.cos c).state ≠ .finished → Unsent (s.chans (.join c)) ∧ s.received (.join c) = 0

namespace Custody

theorem engagement (h : Custody s) : Engaged s :=
  ⟨h.cleared, fun t c j hj => (h.engaged t c j hj).attached, fun t c j hj => (h.engaged t c j hj).live⟩

/-- Steps that leave the coroutines where they are, but for the code of thread `t`. -/
theorem keep (h : Custody s) (hh : ∀ c, (s'.cos c).handler = (s.cos c).handler)
    (hf : ∀ c, (s'.cos c).state = .finished ↔ (s.cos c).state = .finished) (hcl : Cleared s')
    (hpc : ∀ i, i ≠ t → (s'.threads i).pc = (s.threads i).pc)
    (hcar : ∀ i c, (s'.threads i).carried c ≤ (s.threads i).carried c)
    (hch : ∀ c, SameExit (s.chans (.join c)) (s'.chans (.join c)))
    (hre : ∀ c, s'.received (.join c) = s.received (.join c)) (hn : s'.coN = s.coN)
    (ht : ∀ c j, (s'.threads t).pc.engaged = some (c, j) → EngagedIn s t c j) : Custody s' := by
  have hun : ∀ c, Unsent (s.chans (.join c)) ∧ s.received (.join c) = 0 →
      Unsent (s'.chans (.join c)) ∧ s'.received (.join c) = 0 := by
    rintro c ⟨h1, h2⟩
    exact ⟨h1.same (hch c), (hre c).trans h2⟩
  have hin : ∀ i c j, EngagedIn s i c j → EngagedIn s' i c j := by
    rintro i c j ⟨h1, h2, h3, h4⟩
    exact ⟨(hh c).trans h1, fun hl hfin => h2 hl ((hf c).1 hfin), fun hl => (hf c).2 (h3 hl), fun ho => hun c (h4 ho)⟩
  refine ⟨hcl, fun i c j hj => ?_, fun c hc => ?_, fun i c hc => ?_, fun c i i' hi hi' => ?_, fun i c => ?_, fun c => ?_,
    fun c hc => ?_⟩
  · by_cases hi : i = t
    · subst hi
      exact hin i c j (ht c j hj)
    · rw [hpc i hi] at hj
      exact hin i c j (h.engaged i c j hj)
  · obtain ⟨h1, h2, h3⟩ := h.fresh c (hn ▸ hc)
    refine ⟨(hh c).trans h1, fun hfin => h2 ((hf c).1 hfin), fun i => ?_⟩
    have := hcar i c
    rw [h3 i] at this
    omega
  · rw [hh]
    exact h.carried i c (Nat.lt_of_lt_of_le hc (hcar i c))
  · exact h.once c i i' (Nat.lt_of_lt_of_le hi (hcar i c)) (Nat.lt_of_lt_of_le hi' (hcar i' c))
  · exact Nat.le_trans (hcar i c) (h.one i c)
  · exact (h.exits c).same (hch c)
  · exact hun c (h.unsent c (fun hfin => hc ((hf c).2 hfin)))

theorem lands (h : Custody s) (hl : Lands t s s') : Custody s' := by
  refine h.keep hl.handler hl.finished (h.cleared.lands hl) hl.pc (fun i c => (hl.carried i c).le) hl.chans
    hl.received hl.coN ?_
  intro c j hj
  obtain ⟨h1, h2, h3⟩ := hl.enters c j hj
  refine ⟨h1, fun _ => h2, fun hlive => ?_, fun _ => h.unsent c h2⟩
  rcases h3 with rfl | rfl <;> cases hlive

theorem job (h : Custody s) {ret : Ret} {j j' : Job α} (hpc : (s.threads t).pc = .exec c ret j) (hj : JobStep cfg j j')
    (hq : Quiet t s s') (hpc' : (s'.threads t).pc = .exec c ret j') : Custody s' := by
  have hin := h.engaged t c (some j) (by rw [hpc]; rfl)
  refine h.keep hq.handler hq.finished (h.cleared.quiet hq) hq.pc (fun i c => (hq.carried i c).le) hq.chans
    hq.received hq.coN ?_
  intro c' j₀ hj₀
  rw [hpc'] at hj₀
  cases hj₀
  have hlive : Job.live j' = Job.live j := by
    cases hj with
    | report i res => cases res <;> (simp only [Config.report]; try split) <;> rfl
    | _ => rfl
  have hover : Job.reported j' = false → Job.reported j = false := by
    cases hj <;> simp
  exact ⟨hin.attached, fun hl => hin.live (hlive.symm.trans hl), fun hl => hin.ended (hlive.symm.trans hl),
    fun ho => hin.unsent (hover ho)⟩

theorem spawn (h : Custody s) {ret : Ret} {id : Nat} {slab : Lib.Slab startingId Nat}
    (hpc : (s.threads t).pc = .exec c ret .user)
    (hs : s' = (({ s with coN := s.coN + 1, coroutinesNum := s.coroutinesNum + 1 }.setCo c
      { s.cos c with children := (s.cos c).children ++ [s.coN] }).setCo s.coN (Coroutine.new id (some t))).setThread t
        { s.threads t with coroutines := slab, pc := .exec c ret .user }) :
    Custody s' := by
  have hin := h.engaged t c (some .user) (by rw [hpc]; rfl)
  have hc : c ≠ s.coN := by
    rintro rfl
    have := hin.attached
    rw [(h.fresh _ (Nat.le_refl _)).1] at this
    cases this
  have hnew : s'.cos s.coN = Coroutine.new id (some t) := by rw [hs, setThread_cos, setCo_self]
  have hold : ∀ c', c' ≠ s.coN → (s'.cos c').handler = (s.cos c').handler ∧ (s'.cos c').state = (s.cos c').state ∧
      (s'.cos c').blockedOn = (s.cos c').blockedOn := by
    intro c' hc'
    rw [hs, setThread_cos, setCo_ne _ _ hc', cos_setCo]
    split
    · rename_i hcc
      subst hcc
      exact ⟨rfl, rfl, rfl⟩
    · exact ⟨rfl, rfl, rfl⟩
  have hth : ∀ i, (s'.threads i).pc = (s.threads i).pc ∧ (s'.threads i).inbox = (s.threads i).inbox := by
    intro i
    rw [hs, threads_setThread]
    split
    · rename_i hi
      subst hi
      exact ⟨hpc.symm, rfl⟩
    · exact ⟨rfl, rfl⟩
  have hcar : ∀ i c', (s'.threads i).carried c' = (s.threads i).carried c' :=
    fun i c' => by rw [Thread.carried, (hth i).2]; rfl
  have hch : s'.chans = s.chans := by rw [hs]; rfl
  have hre : s'.received = s.received := by rw [hs]; rfl
  have hn : s'.coN = s.coN + 1 := by rw [hs]; rfl
  obtain ⟨hf1, hf2, hf3⟩ := h.fresh s.coN (Nat.le_refl _)
  refine ⟨fun c' hfin => ?_, fun i c' j hj => ?_, fun c' hc' => ?_, fun i c' hc' => ?_, fun c' i i' hi hi' => ?_,
    fun i c' => ?_, fun c' => ?_, fun c' hc' => ?_⟩
  · by_cases hc' : c' = s.coN
    · subst hc'
      rw [hnew]
      rfl
    · rw [(hold c' hc').2.2]
      exact h.cleared c' ((hold c' hc').2.1 ▸ hfin)
  · rw [(hth i).1] at hj
    obtain ⟨h1, h2, h3, h4⟩ := h.engaged i c' j hj
    have hc' : c' ≠ s.coN := by
      rintro rfl
      rw [hf1] at h1
      cases h1
    obtain ⟨e1, e2, -⟩ := hold c' hc'
    exact ⟨e1.trans h1, fun hl => e2 ▸ h2 hl, fun hl => e2.trans (h3 hl), fun ho => by rw [hch, hre]; exact h4 ho⟩
  · rw [hn] at hc'
    have hne : c' ≠ s.coN := by omega
    obtain ⟨e1, e2, -⟩ := hold c' hne
    rw [e1, e2]
    simp only [hcar]
    exact h.fresh c' (by omega)
  · rw [hcar] at hc'
    have hne : c' ≠ s.coN := by
      rintro rfl
      rw [hf3] at hc'
      exact Nat.lt_irrefl _ hc'
    rw [(hold c' hne).1]
    exact h.carried i c' hc'
  · rw [hcar] at hi hi'
    exact h.once c' i i' hi hi'
  · rw [hcar]
    exact h.one i c'
  · rw [hch]
    exact h.exits c'
  · rw [hch, hre]
    by_cases hne : c' = s.coN
    · subst hne
      exact h.unsent _ hf2
    · exact h.unsent c' (fun hfin => hc' ((hold c' hne).2.1.trans hfin))

/-- **The function of coroutine `c` ends.** -/
theorem finish (h : Custody s) {ret : Ret} {res : ExitStatus α} (hpc : (s.threads t).pc = .exec c ret .user)
    (he : Ends t c s s') (hpc' : (s'.threads t).pc = .panicked .slabRemove ∨
      (s'.threads t).pc = .exec c ret (.terminate 0 res) ∨ (s'.threads t).pc = .exec c ret (cfg.report res)) :
    Custody s' := by
  have hin := h.engaged t c (some .user) (by rw [hpc]; rfl)
  have hlive := hin.live rfl
  have hhand : ∀ c', (s'.cos c').handler = (s.cos c').handler := by
    intro c'
    rw [he.co]
    by_cases hc : c' = c
    · subst hc
      rw [Function.update_self]
    · rw [Function.update_of_ne hc]
  have hself : s'.cos c = { s.cos c with blockedOn := [], state := .finished } := by rw [he.co, Function.update_self]
  have hold : ∀ c', c' ≠ c → s'.cos c' = s.cos c' := fun c' hc => by rw [he.co, Function.update_of_ne hc]
  have hcar : ∀ i c', (s'.threads i).carried c' = (s.threads i).carried c' :=
    fun i c' => by rw [Thread.carried, he.inbox]; rfl
  have hafter : ∀ c' j, (s'.threads t).pc.engaged = some (c', j) → c' = c ∧ j.all Job.live = false := by
    intro c' j hj
    rcases hpc' with hp | hp | hp <;> rw [hp] at hj <;> cases hj
    · exact ⟨rfl, rfl⟩
    · refine ⟨rfl, ?_⟩
      cases res <;> (simp only [Config.report]; try split) <;> rfl
  refine ⟨fun c' hfin => ?_, fun i c' j hj => ?_, fun c' hc' => ?_, fun i c' hc' => ?_, fun c' i i' hi hi' => ?_,
    fun i c' => ?_, fun c' => ?_, fun c' hc' => ?_⟩
  · by_cases hc : c' = c
    · subst hc
      rw [hself]
    · rw [hold c' hc] at hfin ⊢
      exact h.cleared c' hfin
  · by_cases hi : i = t
    · subst hi
      obtain ⟨rfl, hl⟩ := hafter c' j hj
      refine ⟨(hhand _).trans hin.attached, fun hl' => ?_, fun _ => by rw [hself], fun _ => ?_⟩
      · rw [hl] at hl'
        cases hl'
      · rw [he.chans, he.received]
        exact h.unsent _ hlive
    · rw [he.pc i hi] at hj
      have hin' := h.engaged i c' j hj
      have hc : c' ≠ c := by
        rintro rfl
        have := hin'.attached.symm.trans hin.attached
        cases this
        exact hi rfl
      obtain ⟨h1, h2, h3, h4⟩ := hin'
      refine ⟨(hhand c').trans h1, fun hl => ?_, fun hl => ?_, fun ho => ?_⟩
      · rw [hold c' hc]
        exact h2 hl
      · rw [hold c' hc]
        exact h3 hl
      · rw [he.chans, he.received]
        exact h4 ho
  · rw [he.coN] at hc'
    obtain ⟨h1, h2, h3⟩ := h.fresh c' hc'
    have hc : c' ≠ c := by
      rintro rfl
      rw [hin.attached] at h1
      cases h1
    rw [hold c' hc]
    simp only [hcar]
    exact ⟨h1, h2, h3⟩
  · rw [hcar] at hc'
    rw [hhand]
    exact h.carried i c' hc'
  · rw [hcar] at hi hi'
    exact h.once c' i i' hi hi'
  · rw [hcar]
    exact h.one i c'
  · rw [he.chans]
    exact h.exits c'
  · rw [he.chans, he.received]
    have hc : c' ≠ c := by
      rintro rfl
      exact hc' (by rw [hself])
    exact h.unsent c' (hold c' hc ▸ hc')

/-- Coroutine `c`'s channel changes, and nothing else. -/
theorem setExit (h : Custody s) (c : Nat) (hth : s'.threads = s.threads) (hcos : s'.cos = s.cos) (hn : s'.coN = s.coN)
    (hother : ∀ c', c' ≠ c → s'.chans (.join c') = s.chans (.join c') ∧ s'.received (.join c') = s.received (.join c'))
    (hch : ExitChan (s'.chans (.join c)))
    (hun : ((s.cos c).state ≠ .finished ∨ ∃ t j, (s.threads t).pc.engaged = some (c, j) ∧ j.all Job.reported = false) →
      Unsent (s'.chans (.join c)) ∧ s'.received (.join c) = 0) : Custody s' := by
  refine ⟨fun c' hfin => ?_, fun i c' j hj => ?_, fun c' hc' => ?_, fun i c' hc' => ?_, fun c' i i' hi hi' => ?_,
    fun i c' => ?_, fun c' => ?_, fun c' hc' => ?_⟩
  · rw [hcos] at hfin ⊢
    exact h.cleared c' hfin
  · rw [hth] at hj
    obtain ⟨h1, h2, h3, h4⟩ := h.engaged i c' j hj
    refine ⟨by rw [hcos]; exact h1, by rw [hcos]; exact h2, by rw [hcos]; exact h3, fun ho => ?_⟩
    by_cases hc : c' = c
    · subst hc
      exact hun (.inr ⟨i, j, hj, ho⟩)
    · rw [(hother c' hc).1, (hother c' hc).2]
      exact h4 ho
  · rw [hcos, hth]
    exact h.fresh c' (hn ▸ hc')
  · rw [hth] at hc'
    rw [hcos]
    exact h.carried i c' hc'
  · rw [hth] at hi hi'
    exact h.once c' i i' hi hi'
  · rw [hth]
    exact h.one i c'
  · by_cases hc : c' = c
    · subst hc
      exact hch
    · rw [(hother c' hc).1]
      exact h.exits c'
  · rw [hcos] at hc'
    by_cases hc : c' = c
    · subst hc
      exact hun (.inl hc')
    · rw [(hother c' hc).1, (hother c' hc).2]
      exact h.unsent c' hc'

/-- **A step of `exit_sender`.** -/
theorem exit (h : Custody s) {ret : Ret} {res : Option (ExitStatus α)} {pc : SenderPc w (ExitStatus α)}
    {chan : Chan w (ExitStatus α) Reg Nat} {n : Notify Reg Nat} (hpc : (s.threads t).pc = .exec c ret (.exit res))
    (hs : (s.chans (.join c)).senders[0]? = some pc) (hd : pc ≠ .dropped)
    (hstep : (s.chans (.join c)).senderStep 0 (exitAct res pc) = some (chan, n)) (hm : m = s.setChan (.join c) chan)
    (hq : Quiet t m s')
    (hpc' : (s'.threads t).pc = .exec c ret (.exit none) ∨ ∃ why, (s'.threads t).pc = .panicked why) : Custody s' := by
  subst hm
  have hin := h.engaged t c (some (.exit res)) (by rw [hpc]; rfl)
  have hfin := hin.ended rfl
  have hsend : (s.chans (.join c)).senders = [pc] := by
    obtain ⟨pc', he, -⟩ := (h.exits c).sender
    rw [he] at hs ⊢
    exact congrArg (fun x => [x]) (Option.some.inj hs)
  obtain ⟨hmove, hb, -⟩ := exit_move hsend hd hstep
  -- thread `t` steps aside, and the channel is edited while no thread is at the coroutine
  have haside : Custody (s.setPc t .poll) := h.lands (lands_setPc rfl)
  have hedit : Custody ((s.setPc t .poll).setChan (.join c) chan) := by
    refine haside.setExit c rfl rfl rfl (fun c' hc => ?_) ?_ ?_
    · rw [chans_setChan, if_neg (fun he => hc (by cases he; rfl))]
      exact ⟨rfl, rfl⟩
    · rw [chans_setChan, if_pos rfl]
      refine (h.exits c).exit hmove hb (fun hres => (hin.unsent ?_).1)
      cases res with
      | none => cases hres
      | some v => rfl
    · rintro (hlive | ⟨i, j, hj, -⟩)
      · exact (hlive hfin).elim
      · have hi := (haside.engaged i c j hj).attached.symm.trans hin.attached
        cases hi
        rw [setPc, setThread_self] at hj
        cases hj
  refine hedit.keep hq.handler hq.finished ?_ (fun i hi => (hq.pc i hi).trans ?_) (fun i c' => ?_) hq.chans hq.received
    hq.coN ?_
  · exact fun c' hf => hq.cleared c' (h.cleared c' ((hq.finished c').1 hf)) hf
  · exact (congrArg Thread.pc (setThread_ne _ _ hi)).symm
  · refine Nat.le_of_eq ((hq.carried i c').trans ?_)
    show (s.threads i).carried c' = ((s.setPc t .poll).threads i).carried c'
    rw [setPc, threads_setThread]
    split
    · rename_i hi
      rw [hi]
      rfl
    · rfl
  · intro c' j hj
    rcases hpc' with hp | ⟨why, hp⟩ <;> rw [hp] at hj <;> cases hj
    exact ⟨hin.attached, fun hl => (by cases hl), fun _ => hfin, fun ho => (by cases ho)⟩

/-- **A step of the receiving end** of an exit status. -/
theorem receiver (h : Custody s) (hcos : s'.cos = s.cos) (hth : s'.threads = s.threads) (hn : s'.coN = s.coN)
    (hother : ∀ c', c' ≠ c → s'.chans (.join c') = s.chans (.join c') ∧ s'.received (.join c') = s.received (.join c'))
    (hr : ExitRecv (s.chans (.join c)) (s.received (.join c)) (s'.chans (.join c)) (s'.received (.join c))) :
    Custody s' := by
  have hold := h.exits c
  have hun : (s.cos c).state ≠ .finished ∨ (∃ t j, (s.threads t).pc.engaged = some (c, j) ∧ j.all Job.reported = false) →
      Unsent (s.chans (.join c)) ∧ s.received (.join c) = 0 := by
    rintro (hf | ⟨t, j, hj, ho⟩)
    · exact h.unsent c hf
    · exact (h.engaged t c j hj).unsent ho
  refine h.setExit c hth hcos hn hother ?_ (fun hcase => ?_)
  · revert hr
    generalize s'.chans (.join c) = ch'
    generalize s'.received (.join c) = n'
    intro hr
    obtain ⟨pc, hpc, hsend⟩ := hold.sender
    cases hr with
    | same hs => exact hold.same hs
    | took res htry =>
      have hle := hold.queue
      refine ⟨hold.bound, ⟨pc, hpc, fun v b he => ?_⟩, ?_⟩
      · rw [Chan.popQueue, hsend v b he]
        rfl
      · rw [Chan.popQueue, List.length_tail]
        omega
    | handed hb =>
      rw [hold.bound] at hb
      cases hb
    | dropped => exact ⟨hold.bound, ⟨pc, hpc, fun _ _ _ => rfl⟩, Nat.zero_le _⟩
  · obtain ⟨hu, hzero⟩ := hun hcase
    revert hr
    generalize s'.chans (.join c) = ch'
    generalize s'.received (.join c) = n'
    intro hr
    cases hr with
    | same hs => exact ⟨hu.same hs, hzero⟩
    | took res htry =>
      rw [Chan.tryRecv, hu.queue] at htry
      simp only at htry
      split at htry <;> cases htry
    | handed hb =>
      rw [hold.bound] at hb
      cases hb
    | dropped => exact ⟨⟨hu.sender, rfl⟩, hzero⟩

/-- A coroutine that no thread is at changes its thread. -/
theorem setHandler (h : Custody s) {o : Option Nat} (id : Nat) (hold : ∀ j, o = some j → c < s.coN)
    (hno : ∀ i j, (s.threads i).pc.engaged ≠ some (c, j)) (hcar : o ≠ none → ∀ i, (s.threads i).carried c = 0) :
    Custody (s.setCo c { s.cos c with id := id, handler := o }) := by
  have hco : ∀ c', ((s.setCo c { s.cos c with id := id, handler := o }).cos c').state = (s.cos c').state ∧
      ((s.setCo c { s.cos c with id := id, handler := o }).cos c').blockedOn = (s.cos c').blockedOn ∧
      (c' ≠ c → ((s.setCo c { s.cos c with id := id, handler := o }).cos c').handler = (s.cos c').handler) ∧
      ((s.setCo c { s.cos c with id := id, handler := o }).cos c).handler = o := by
    intro c'
    rw [setCo_self]
    by_cases hc : c' = c
    · subst hc
      rw [setCo_self]
      exact ⟨rfl, rfl, fun hne => (hne rfl).elim, rfl⟩
    · rw [setCo_ne _ _ hc]
      exact ⟨rfl, rfl, fun _ => rfl, rfl⟩
  refine ⟨fun c' hfin => ?_, fun i c' j hj => ?_, fun c' hc' => ?_, fun i c' hc' => ?_, h.once, h.one, h.exits,
    fun c' hc' => h.unsent c' ((hco c').1 ▸ hc')⟩
  · rw [(hco c').2.1]
    exact h.cleared c' ((hco c').1 ▸ hfin)
  · have hc : c' ≠ c := by
      rintro rfl
      exact hno i j hj
    obtain ⟨h1, h2, h3, h4⟩ := h.engaged i c' j hj
    exact ⟨((hco c').2.2.1 hc).trans h1, fun hl => (hco c').1 ▸ h2 hl, fun hl => (hco c').1.trans (h3 hl), h4⟩
  · obtain ⟨h1, h2, h3⟩ := h.fresh c' hc'
    refine ⟨?_, (hco c').1 ▸ h2, h3⟩
    by_cases hc : c' = c
    · subst hc
      rw [(hco c').2.2.2]
      cases o with
      | none => rfl
      | some j => exact (Nat.not_lt.2 hc' (hold j rfl)).elim
    · rw [(hco c').2.2.1 hc]
      exact h1
  · by_cases hc : c' = c
    · subst hc
      rw [(hco c').2.2.2]
      by_contra ho
      rw [setCo_threads, hcar ho i] at hc'
      exact Nat.lt_irrefl _ hc'
    · rw [(hco c').2.2.1 hc]
      exact h.carried i c' hc'

theorem lt_of_handler (h : Custody s) (hh : (s.cos c).handler = some t) : c < s.coN := by
  by_contra hc
  rw [(h.fresh c (Nat.le_of_not_lt hc)).1] at hh
  cases hh

theorem not_engaged (h : Custody s) (hfree : (s.threads t).pc.engaged = none)
    (hh : (s.cos c).handler = some t ∨ (s.cos c).handler = none) (i : Nat) (j : Option (Job α)) :
    (s.threads i).pc.engaged ≠ some (c, j) := by
  intro hj
  have ha := (h.engaged i c j hj).attached
  rcases hh with hh | hh
  · cases ha.symm.trans hh
    rw [hfree] at hj
    cases hj
  · rw [hh] at ha
    cases ha

/-- The thread of a coroutine lets it go. -/
theorem lost (h : Custody s) (hfree : (s.threads t).pc.engaged = none) (hh : (s.cos c).handler = some t) :
    Custody (s.setCo c { s.cos c with handler := none }) :=
  h.setHandler (s.cos c).id (fun _ ho => by cases ho) (h.not_engaged hfree (.inl hh)) (fun ho => (ho rfl).elim)

/-- **A coroutine is sent** to another thread. -/
theorem send (h : Custody s) (hh : (s.cos c).handler = none) (hc : c < s.coN)
    (hcar : ∀ i, (s.threads i).carried c = 0) (l : Nat) : Custody (s.send l (.migration c)) := by
  have hth : ∀ i, ((s.send l (.migration c)).threads i).pc = (s.threads i).pc := fun i => by rw [threads_send]
  have hself : ∀ i, 0 < ((s.send l (.migration c)).threads i).carried c → i = l := by
    intro i hi
    rw [carried_send, hcar] at hi
    split at hi
    · rename_i hand
      exact hand.1
    · exact (Nat.lt_irrefl _ hi).elim
  have hother : ∀ i c', c' ≠ c → ((s.send l (.migration c)).threads i).carried c' = (s.threads i).carried c' := by
    intro i c' hcc
    rw [carried_send, if_neg (fun hand => hcc hand.2), Nat.add_zero]
  refine ⟨h.cleared, fun i c' j hj => ?_, fun c' hc' => ?_, fun i c' hc' => ?_, fun c' i i' hi hi' => ?_,
    fun i c' => ?_, h.exits, h.unsent⟩
  · rw [hth] at hj
    obtain ⟨h1, h2, h3, h4⟩ := h.engaged i c' j hj
    exact ⟨h1, h2, h3, h4⟩
  · obtain ⟨h1, h2, h3⟩ := h.fresh c' hc'
    have hcc : c' ≠ c := fun hcc => Nat.not_lt.2 hc' (hcc ▸ hc)
    exact ⟨h1, h2, fun i => (hother i c' hcc).trans (h3 i)⟩
  · by_cases hcc : c' = c
    · subst hcc
      exact hh
    · rw [hother i c' hcc] at hc'
      exact h.carried i c' hc'
  · by_cases hcc : c' = c
    · subst hcc
      exact (hself i hi).trans (hself i' hi').symm
    · rw [hother _ _ hcc] at hi hi'
      exact h.once c' i i' hi hi'
  · by_cases hcc : c' = c
    · subst hcc
      rw [carried_send, hcar]
      split <;> omega
    · rw [hother i c' hcc]
      exact h.one i c'

theorem detach (h : Custody s) {l : Nat} {k : Callback} {slab : Lib.Slab startingId Nat}
    (hfree : (s.threads t).pc.engaged = none) (hh : (s.cos c).handler = some t)
    (hm : m = (s.setCo c { s.cos c with handler := none }).setThread t { s.threads t with
      coroutines := slab, pc := .call k }) : Custody (m.send l (.migration c)) := by
  subst hm
  have hlost := h.lost hfree hh
  have hcar : ∀ i, (s.threads i).carried c = 0 := by
    intro i
    by_contra hi
    have := h.carried i c (Nat.pos_of_ne_zero hi)
    rw [hh] at this
    cases this
  have hmid : Lands t (s.setCo c { s.cos c with handler := none }) ((s.setCo c { s.cos c with handler := none }).setThread t
      { s.threads t with coroutines := slab, pc := .call k }) := lands_setThread (fun _ => rfl) rfl
  refine (hlost.lands hmid).send ?_ (h.lt_of_handler hh) (fun i => ?_) l
  · rw [setThread_cos, setCo_self]
  · exact (hmid.carried i c).trans (hcar i)

/-- **A `Migration` arrives**: its coroutine is attached to thread `t`. -/
theorem attach (h : Custody s) {id : Nat} {slab : Lib.Slab startingId Nat} {rest : List Message}
    (hin : (s.threads t).inbox = .migration c :: rest) (hpc : (s.threads t).pc = .poll) :
    Custody ((s.setCo c { s.cos c with id := id, handler := some t }).setThread t { s.threads t with
      inbox := rest, coroutines := slab, pc := .register c (s.cos c).blockedOn none .attached }) := by
  have hcount : (s.threads t).carried c = rest.countP (Message.carries c) + 1 := by
    rw [Thread.carried, hin, List.countP_cons]
    simp
  have hrest : rest.countP (Message.carries c) = 0 := by
    have := h.one t c
    omega
  have hh : (s.cos c).handler = none := h.carried t c (by omega)
  have hc : c < s.coN := by
    by_contra hc
    have := (h.fresh c (Nat.le_of_not_lt hc)).2.2 t
    omega
  have hfree : (s.threads t).pc.engaged = none := by
    rw [hpc]
    rfl
  -- the message leaves the queue first
  have hpop : Custody (s.setThread t { s.threads t with inbox := rest }) := by
    refine h.keep (t := t) (fun _ => rfl) (fun _ => Iff.rfl) h.cleared (fun i hi => ?_) (fun i c' => ?_)
      (fun _ => .rfl' _) (fun _ => rfl) rfl (fun c' j hj => ?_)
    · rw [setThread_ne _ _ hi]
    · rw [threads_setThread]
      split
      · rename_i hi
        rw [hi, Thread.carried, Thread.carried, hin, List.countP_cons]
        exact Nat.le_add_right _ _
      · exact Nat.le_refl _
    · rw [setThread_self, hfree] at hj
      cases hj
  have hzero : ∀ i, ((s.setThread t { s.threads t with inbox := rest }).threads i).carried c = 0 := by
    intro i
    rw [threads_setThread]
    split
    · exact hrest
    · rename_i hi
      by_contra hne
      exact hi (h.once c i t (Nat.pos_of_ne_zero hne) (by omega))
  have hattached : Custody ((s.setThread t { s.threads t with inbox := rest }).setCo c
      { s.cos c with id := id, handler := some t }) :=
    hpop.setHandler id (fun _ _ => hc)
      (hpop.not_engaged (t := t) (by rw [setThread_self]; exact hfree) (.inr hh)) (fun _ => hzero)
  refine hattached.keep (t := t) (fun _ => rfl) (fun _ => Iff.rfl) hattached.cleared (fun i hi => ?_) (fun i c' => ?_)
    (fun _ => .rfl' _) (fun _ => rfl) rfl (fun c' j hj => ?_)
  · rw [setThread_ne _ _ hi]
    exact congrArg Thread.pc (setThread_ne s _ hi).symm
  · refine Nat.le_of_eq ?_
    show _ = ((s.setThread t { s.threads t with inbox := rest }).threads i).carried c'
    rw [threads_setThread, threads_setThread]
    split <;> rfl
  · rw [setThread_self] at hj
    cases hb : (s.cos c).blockedOn with
    | nil =>
      rw [hb] at hj
      cases hj
    | cons src l =>
      rw [hb] at hj
      cases hj
      refine ⟨by rw [setCo_self], fun _ hfin => ?_, fun hl => (by cases hl), fun ho => (by cases ho)⟩
      rw [setCo_self] at hfin
      rw [h.cleared c hfin] at hb
      cases hb

/-- **Every step keeps it.** -/
theorem step (h : Custody s) {a : Action α} (hst : s.step cfg a = some s') : Custody s' := by
  cases step_kind h.engagement hst with
  | lands t a hl => exact h.lands hl
  | switches t c ret u hpc hu hl => exact h.lands hl
  | job t c ret j j' a hpc hj hq hpc' => exact h.job hpc hj hq hpc'
  | spawn t c ret id slab hpc => exact h.spawn hpc rfl
  | finish t c ret res hpc he hpc' => exact h.finish hpc he hpc'
  | exits t c ret res pc chan n a hpc hs hd hstep hm hq hpc' => exact h.exit hpc hs hd hstep hm hq hpc'
  | exited t c ret res a hpc hs hl => exact h.lands hl
  | lost t c why a hfree hh hm hl hwhy hpc' =>
    subst hm
    exact (h.lost hfree hh).lands hl
  | detach t c l k slab a hfree hh hm => exact h.detach hfree hh hm
  | attach t c id slab rest a hin hpc => exact h.attach hin hpc
  | outside hout hq hpc =>
    refine h.keep hq.handler hq.finished (h.cleared.quiet hq) hq.pc (fun i c => (hq.carried i c).le) hq.chans
      hq.received hq.coN ?_
    intro c j hj
    rw [hpc] at hj
    exact h.engaged 0 c j hj
  | receiver c a hcos hth hn hj hother hr => exact h.receiver hcos hth hn hother hr

theorem init (S : Sched) (w : Nat) (α : Type) (bound : Nat → Option Nat) :
    Custody (Instance.start S w bound : Instance S w α) := by
  have hth : ∀ i, (((Instance.start S w bound : Instance S w α)).threads i).pc = .starting ∧
      (((Instance.start S w bound : Instance S w α)).threads i).inbox = [] := by
    intro i
    simp only [start]
    by_cases hi : i = 0
    · subst hi
      rw [Function.update_self]
      exact ⟨rfl, rfl⟩
    · rw [Function.update_of_ne hi]
      exact ⟨rfl, rfl⟩
  have hcar : ∀ i c, (((Instance.start S w bound : Instance S w α)).threads i).carried c = 0 := by
    intro i c
    rw [Thread.carried, (hth i).2]
    rfl
  have hco : ∀ c, (((Instance.start S w bound : Instance S w α)).cos c).state = .ready ∧ (c ≠ 0 →
      (((Instance.start S w bound : Instance S w α)).cos c).handler = none) := by
    intro c
    simp only [start]
    by_cases hc : c = 0
    · subst hc
      rw [Function.update_self]
      exact ⟨rfl, fun h => (h rfl).elim⟩
    · rw [Function.update_of_ne hc]
      exact ⟨rfl, fun _ => rfl⟩
  have hlive : ∀ c, (((Instance.start S w bound : Instance S w α)).cos c).state ≠ .finished := by
    intro c hf
    rw [(hco c).1] at hf
    cases hf
  refine ⟨fun c hf => (hlive c hf).elim, fun i c j hj => ?_, fun c hc => ⟨(hco c).2 ?_, hlive c, fun i => hcar i c⟩,
    fun i c hc => ?_, fun c i i' hi => ?_, fun i c => ?_, fun c => ⟨rfl, ⟨.idle, rfl, fun _ _ _ => rfl⟩, Nat.zero_le _⟩,
    fun c _ => ⟨⟨rfl, rfl⟩, rfl⟩⟩
  · rw [(hth i).1] at hj
    cases hj
  · rintro rfl
    exact Nat.not_succ_le_zero 0 hc
  · rw [hcar] at hc
    exact (Nat.lt_irrefl _ hc).elim
  · rw [hcar] at hi
    exact (Nat.lt_irrefl _ hi).elim
  · rw [hcar]
    exact Nat.zero_le _

/-- **It holds in every run.** -/
theorem reach {S : Sched} {w : Nat} {α : Type} {cfg : Config} {bound : Nat → Option Nat}
    {ok : Instance S w α → Action α → Prop} {s : Instance S w α} (h : (mioco S w α cfg bound).Reach ok s) : Custody s :=
  h.invariant Custody (fun s hs => by cases hs; exact init S w α bound) (fun _ _ _ hc _ hst => hc.step hst)

end Custody

end Instance
end Mioco

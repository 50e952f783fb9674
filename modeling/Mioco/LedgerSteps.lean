import Mioco.Ledger
/-!
# Every step keeps the ledger

One lemma per function of the model, in its order; only `detach`, `attach`, `spawn`, `finish` and the broadcast of
`Terminate` change what the ledger counts.
-/
namespace Mioco

open Lib (Slab sum_change le_sum)

namespace Instance
variable {S : Sched} {w : Nat} {α : Type} {n : Nat} {s : Instance S w α} {t c : Nat}

/-- The coroutine of a handle may be entered from thread `t`. -/
def Enterable (s : Instance S w α) (t c : Nat) : Prop := (s.cos c).state = .finished ∨ s.Attached t c

/-- The coroutines of the handles a command uses may be entered; one that migrates is attached. -/
def CommandOk (s : Instance S w α) (t : Nat) : Cmd → Prop
  | .ret => True
  | .resume i | .drop i => ∀ h, (s.threads t).held[i]? = some h → s.Enterable t h.co
  | .migrate i _ => ∀ h, (s.threads t).held[i]? = some h → s.Attached t h.co

/-- `F` is `s` but for the slab and the code of thread `t`, and for messages. -/
structure OneThread (s F : Instance S w α) (t : Nat) (slab : Slab startingId Nat) (pc : Pc α) : Prop where
  coroutines : ∀ i, (F.threads i).coroutines = if i = t then slab else (s.threads i).coroutines
  pc : ∀ i, (F.threads i).pc = if i = t then pc else (s.threads i).pc
  isOpen : ∀ i, (F.threads i).isOpen = (s.threads i).isOpen
  terminated : ∀ i, (F.threads i).terminated = (s.threads i).terminated

/-- `F` is `s` but for coroutine `c`. -/
def OneCo (s F : Instance S w α) (c : Nat) : Prop :=
  ∀ d, d ≠ c → (d < F.coN ↔ d < s.coN) ∧ ((F.cos d).state = .finished ↔ (s.cos d).state = .finished) ∧
    (F.cos d).handler = (s.cos d).handler ∧ (F.cos d).id = (s.cos d).id ∧ (F.cos d).blockedOn = (s.cos d).blockedOn

namespace OneCo
variable {F : Instance S w α}

theorem attached (h : OneCo s F c) {i d : Nat} (hd : d ≠ c) : F.Attached i d ↔ s.Attached i d := by
  obtain ⟨h1, h2, h3, -⟩ := h d hd
  rw [Attached, Attached, h1, ne_eq, h2, h3]

theorem travelling (h : OneCo s F c) {d : Nat} (hd : d ≠ c) : F.Travelling d ↔ s.Travelling d := by
  obtain ⟨h1, h2, h3, -⟩ := h d hd
  rw [Travelling, Travelling, h1, ne_eq, h2, h3]

theorem completed (h : OneCo s F c) {d : Nat} (hd : d ≠ c) : F.Completed d ↔ s.Completed d := by
  obtain ⟨h1, h2, -⟩ := h d hd
  rw [Completed, Completed, h1, h2]

end OneCo

namespace Places
variable {F : Instance S w α} {slab : Slab startingId Nat} {pc : Pc α}

/-- What `OneThread` says of the threads' code. -/
theorem codes (h : Places n s) (ht : t < n) (ho : OneThread s F t slab pc) (hended : pc.isEnded = false)
    (hrun : (s.threads t).pc.isEnded = false)
    (hstop : pc.isStopping = true → (s.threads t).terminated = true) :
    (∀ i why, (F.threads i).pc = .panicked why → why ≠ .slabRemove ∧ 0 < (F.threads i).coroutines.count) ∧
    (∀ i, (F.threads i).isOpen = false → (F.threads i).pc.isEnded = true) ∧
    (∀ i, (F.threads i).pc.isStopping = true → (F.threads i).terminated = true) ∧
    (∀ i, n ≤ i → (F.threads i).pc.isStarting = true) := by
  refine ⟨fun i why => ?_, fun i => ?_, fun i => ?_, fun i hi => ?_⟩
  · rw [ho.pc, ho.coroutines]
    split
    · rintro rfl
      cases hended
    · exact h.panicked i why
  · rw [ho.pc, ho.isOpen]
    intro hopen
    split
    · rename_i hi
      subst hi
      rw [h.closed i hopen] at hrun
      cases hrun
    · exact h.closed i hopen
  · rw [ho.pc, ho.terminated]
    split
    · rename_i hi
      subst hi
      exact hstop
    · exact h.stopping i
  · rw [ho.pc, if_neg (by omega)]
    exact h.outside i hi

/-- **Coroutine `c` leaves the slab of thread `t`.** -/
theorem leaves (h : Places n s) (ht : t < n) (hat : s.Attached t c) (ho : OneThread s F t slab pc) (hc : OneCo s F c)
    (hslab : (s.threads t).coroutines.remove (s.cos c).id = some slab) (hgone : ∀ i, ¬ F.Attached i c)
    (hpc : pc.attends = none) :
    (∀ i id d, (F.threads i).coroutines.get id = some d → F.Attached i d ∧ (F.cos d).id = id) ∧
    (∀ i d, F.Attached i d → i < n ∧ (F.threads i).coroutines.get (F.cos d).id = some d) ∧
    (∀ i d, (F.threads i).pc.attends = some d → F.Attached i d) := by
  obtain ⟨-, hget, -⟩ := Slab.remove_some hslab
  have hplace := (h.placed t c hat).2
  have hother : ∀ i d, s.Attached i d → (d = c → i ≠ t) → d ≠ c := by
    rintro i d hid hne rfl
    have := hid.2.2.symm.trans hat.2.2
    cases this
    exact hne rfl rfl
  refine ⟨fun i id d hd => ?_, fun i d hd => ?_, fun i d hd => ?_⟩
  · rw [ho.coroutines] at hd
    have hsd : (s.threads i).coroutines.get id = some d ∧ (i = t → id ≠ (s.cos c).id) := by
      by_cases hi : i = t
      · subst hi
        rw [if_pos rfl, hget] at hd
        split at hd
        · cases hd
        · exact ⟨hd, fun _ => ‹_›⟩
      · rw [if_neg hi] at hd
        exact ⟨hd, fun h' => absurd h' hi⟩
    obtain ⟨hid, hidd⟩ := h.stored i id d hsd.1
    have hdc : d ≠ c := hother i d hid (fun hdc hi => hsd.2 hi (by rw [← hidd, hdc]))
    exact ⟨(hc.attached hdc).2 hid, by rw [(hc d hdc).2.2.2.1]; exact hidd⟩
  · have hdc : d ≠ c := fun hdc => hgone i (hdc ▸ hd)
    obtain ⟨hin, hg⟩ := h.placed i d ((hc.attached hdc).1 hd)
    refine ⟨hin, ?_⟩
    rw [ho.coroutines, (hc d hdc).2.2.2.1]
    split
    · rename_i hi
      subst hi
      rw [hget, if_neg]
      · exact hg
      · intro heq
        rw [heq, hplace] at hg
        exact hdc (Option.some.inj hg).symm
    · exact hg
  · rw [ho.pc] at hd
    split at hd
    · rw [hpc] at hd
      cases hd
    · rename_i hi
      have hid := h.attends i d hd
      have hdc := hother i d hid (fun _ => hi)
      exact (hc.attached hdc).2 hid

/-- **Coroutine `c` enters the slab of thread `t`** at `id`. -/
theorem enters (h : Places n s) (ht : t < n) {old : Slab startingId Nat} {id : Nat}
    (hold : ∀ j, old.get j = (s.threads t).coroutines.get j) (ho : OneThread s F t slab pc) (hc : OneCo s F c)
    (hslab : old.insertAt id c = some slab) (hnew : ∀ i, ¬ s.Attached i c) (hat : F.Attached t c)
    (hid : (F.cos c).id = id) (hpc : ∀ d, pc.attends = some d → F.Attached t d) :
    (∀ i id d, (F.threads i).coroutines.get id = some d → F.Attached i d ∧ (F.cos d).id = id) ∧
    (∀ i d, F.Attached i d → i < n ∧ (F.threads i).coroutines.get (F.cos d).id = some d) ∧
    (∀ i d, (F.threads i).pc.attends = some d → F.Attached i d) := by
  obtain ⟨hvac, hget, -⟩ := Slab.insertAt_some hslab
  rw [hold] at hvac
  have hne : ∀ i d, s.Attached i d → d ≠ c := fun i d hd hdc => hnew i (hdc ▸ hd)
  refine ⟨fun i id' d hd => ?_, fun i d hd => ?_, fun i d hd => ?_⟩
  · rw [ho.coroutines] at hd
    by_cases hnewd : i = t ∧ id' = id
    · obtain ⟨rfl, rfl⟩ := hnewd
      rw [if_pos rfl, hget, if_pos rfl] at hd
      cases hd
      exact ⟨hat, hid⟩
    · have hsd : (s.threads i).coroutines.get id' = some d := by
        split at hd
        · rename_i hi
          subst hi
          rwa [hget, if_neg (fun he => hnewd ⟨rfl, he⟩), hold] at hd
        · exact hd
      obtain ⟨hsat, hsid⟩ := h.stored i id' d hsd
      have hdc := hne i d hsat
      exact ⟨(hc.attached hdc).2 hsat, by rw [(hc d hdc).2.2.2.1]; exact hsid⟩
  · by_cases hdc : d = c
    · subst hdc
      have := hat.2.2.symm.trans hd.2.2
      cases this
      refine ⟨ht, ?_⟩
      rw [ho.coroutines, if_pos rfl, hget, if_pos hid]
    · have hsat := (hc.attached hdc).1 hd
      obtain ⟨hin, hg⟩ := h.placed i d hsat
      refine ⟨hin, ?_⟩
      rw [ho.coroutines, (hc d hdc).2.2.2.1]
      split
      · rename_i hi
        subst hi
        rw [hget, if_neg, hold]
        · exact hg
        · intro heq
          rw [heq, hvac] at hg
          cases hg
      · exact hg
  · rw [ho.pc] at hd
    split at hd
    · rename_i hi
      subst hi
      exact hpc d hd
    · have hsat := h.attends i d hd
      exact (hc.attached (hne i d hsat)).2 hsat

end Places

namespace Ledger

theorem count_pos (h : Ledger n s) (hat : s.Attached t c) : 0 < (s.threads t).coroutines.count :=
  Slab.count_pos (h.placed t c hat).2

theorem num_pos (h : Ledger n s) (ht : t < n) (hc : 0 < (s.threads t).coroutines.count) : 0 < s.coroutinesNum := by
  rw [h.count]
  have := le_sum (fun i => (s.threads i).coroutines.count) ht
  omega

/-- With a coroutine in a slab, `Terminate` has not been broadcast. -/
theorem not_broadcast (h : Ledger n s) (ht : t < n) (hc : 0 < (s.threads t).coroutines.count) : s.broadcasts = 0 := by
  have h1 := h.num_pos ht hc
  have h2 := h.once
  have h3 := h.empty
  omega

/-- The rest of the ledger, where a step changes one slab, one coroutine and some messages. -/
theorem change {F : Instance S w α} {slab : Slab startingId Nat} {pc : Pc α} (h : Ledger n s) (ht : t < n)
    (hrun : (s.threads t).pc.isEnded = false) (ho : OneThread s F t slab pc) (hc : OneCo s F c)
    (hpc : pc.isEnded = false) (hstop : pc.isStopping = true → (s.threads t).terminated = true)
    (hpr : pc.isPropagate = false) (hend : ∀ d, pc.ending = some d → F.Completed d)
    (hmsg : ∀ i, Message.propagatePanic ∈ (F.threads i).inbox → Message.propagatePanic ∈ (s.threads i).inbox)
    (hclear : (F.cos c).state = .finished → (F.cos c).blockedOn = [])
    (hfin : s.Completed c → F.Completed c)
    (hplaces : (∀ i id d, (F.threads i).coroutines.get id = some d → F.Attached i d ∧ (F.cos d).id = id) ∧
      (∀ i d, F.Attached i d → i < n ∧ (F.threads i).coroutines.get (F.cos d).id = some d) ∧
      (∀ i d, (F.threads i).pc.attends = some d → F.Attached i d))
    (hflight : ∀ d, ∑ i ∈ Finset.range n, (F.threads i).carried d = if F.Travelling d then 1 else 0)
    (hcount : F.coroutinesNum = ∑ i ∈ Finset.range n, (F.threads i).coroutines.count +
      ∑ i ∈ Finset.range n, (F.threads i).migrations) (hb : Broadcast n F) : Ledger n F := by
  obtain ⟨h1, h2, h6⟩ := hplaces
  obtain ⟨h7, h8, h9, h10⟩ := h.toPlaces.codes ht ho hpc hrun hstop
  refine ⟨⟨h1, h2, hflight, hcount, fun d hd => ?_, h6, fun i d hd => ?_, h7, h8, h9, h10, fun i => ⟨fun hm => (h.caught i).1 (hmsg i hm), ?_⟩⟩,
    hb⟩
  · by_cases hdc : d = c
    · subst hdc
      exact hclear hd
    · obtain ⟨-, e2, -, -, e5⟩ := hc d hdc
      rw [e5]
      exact h.cleared d (e2.1 hd)
  · rw [ho.pc] at hd
    split at hd
    · exact hend d hd
    · have hdf := h.ended i d hd
      by_cases hdc : d = c
      · subst hdc
        exact hfin hdf
      · exact (hc.completed hdc).2 hdf
  · rw [ho.pc]
    split
    · exact hpr
    · exact (h.caught i).2

/-! ## Into a coroutine and out of it -/

theorem leave (h : Ledger n s) (ha : Acting n s t) (hc : s.Enterable t c) {ret : Ret}
    (hs : ret = .stopping → (s.threads t).terminated = true) : Ledger n (s.leave t c ret) := by
  cases ret with
  | resumed k =>
    refine h.setPc ha (fun c' hc' => ?_) rfl rfl rfl of_false of_none
    rcases hc with hf | hat
    · rw [h.cleared c hf] at hc'
      cases hc'
    · cases hb : (s.cos c).blockedOn with
      | nil => rw [hb] at hc'; cases hc'
      | cons src rest => rw [hb] at hc'; cases hc'; exact hat
  | killed k => exact h.setPc ha of_none rfl rfl rfl of_false of_none
  | stopping => exact h.setPc ha of_none rfl rfl rfl (fun _ => hs rfl) of_none
  | attached => exact h.setPc ha of_none rfl rfl rfl of_false of_none
  | shutdown i last => exact h.setPc ha of_none rfl rfl rfl of_false of_none

theorem jumpIn (h : Ledger n s) (ha : Acting n s t) (hc : s.Enterable t c) {ret : Ret}
    (hs : ret = .stopping → (s.threads t).terminated = true) : Ledger n (s.jumpIn t c ret) := by
  unfold Instance.jumpIn
  split
  · exact h.leave ha hc hs
  · rename_i hf
    have hat := hc.resolve_left hf
    rw [if_pos hat.2.2]
    have h' : Ledger n { s with lastJump := Function.update s.lastJump c (some (s.jump c)) } :=
      h.congr rfl rfl rfl rfl rfl
    refine h'.setPc ⟨ha.lt, ha.ended, ha.terminating⟩ (fun c' hc' => ?_) rfl rfl rfl (fun hst => hs ?_) of_none
    · cases hc'
      exact hat
    · cases ret <;> first | rfl | cases hst

theorem kill (h : Ledger n s) (ha : Acting n s t) (hc : s.Enterable t c) {ret : Ret}
    (hs : ret = .stopping → (s.threads t).terminated = true) : Ledger n (s.kill t c ret) := by
  have h' : Ledger n (s.setCo c { s.cos c with killed := true }) := h.setCo Iff.rfl rfl rfl (h.cleared c)
  refine h'.jumpIn ⟨ha.lt, ha.ended, ha.terminating⟩ ?_ hs
  rw [Enterable, Attached, setCo_self]
  exact hc

/-! ## The scheduler -/

theorem callback (h : Ledger n s) (ha : Acting n s t) (k : Callback) (o : Option Handle) :
    Ledger n (s.callback t k o) := h.move ha rfl rfl of_none rfl of_false of_none

theorem command (h : Ledger n s) (ha : Acting n s t) {k : Callback} {cmd : Cmd} (hok : s.CommandOk t cmd) :
    Ledger n (s.command t k cmd) := by
  have hret : Ledger n (s.setPc t (afterCall k)) :=
    h.setPc ha (by cases k <;> exact of_none) (by cases k <;> rfl) (by cases k <;> rfl) (by cases k <;> rfl)
      (by cases k <;> exact of_false) (by cases k <;> exact of_none)
  cases cmd with
  | ret => exact hret
  | resume i =>
    simp only [Instance.command]
    split
    · rename_i hd hi
      refine jumpIn (h.keep ?_ ?_ ?_) (ha.setThread ?_) (hok hd hi) (fun hr => by cases hr) <;> rfl
    · exact hret
  | migrate i threadId =>
    simp only [Instance.command]
    split
    · rename_i hd hi
      refine h.move ha rfl rfl (fun c' hc' => ?_) rfl of_false of_none
      cases hc'
      exact hok hd hi
    · exact hret
  | drop i =>
    simp only [Instance.command]
    split
    · rename_i hd hi
      refine kill (h.keep ?_ ?_ ?_) (ha.setThread ?_) (hok hd hi) (fun hr => by cases hr) <;> rfl
    · exact hret

theorem sched {s' : Instance S w α} (h : Ledger n s) (ht : t < n) {choice : Nat}
    (hok : ∀ k, (s.threads t).pc = .call k →
      s.CommandOk t (S.next choice (s.threads t).held (s.threads t).sched s.shared).1)
    (hst : s.sched t choice = some s') : Ledger n s' := by
  unfold Instance.sched at hst
  simp only at hst
  split at hst
  · rename_i k hk
    cases hst
    have h' : Ledger n { s with shared := (S.next choice (s.threads t).held (s.threads t).sched s.shared).2.2 } :=
      h.congr rfl rfl rfl rfl rfl
    have ha : Acting n { s with shared := (S.next choice (s.threads t).held (s.threads t).sched s.shared).2.2 } t :=
      ⟨ht, by rw [hk]; rfl, by rw [hk]; rfl⟩
    have hok := hok k hk
    refine command (h'.keep ?_ ?_ ?_) (ha.setThread ?_) ?_
    iterate 4 rfl
    revert hok
    generalize (S.next choice (s.threads t).held (s.threads t).sched s.shared).1 = cmd
    cases cmd <;> simp only [CommandOk, setThread_self] <;> exact id
  · cases hst

/-- **A migration leaves**: out of the slab, into a message. -/
theorem detach (h : Ledger n s) (ha : Acting n s t) (hat : s.Attached t c) {cfg : Config} (hcfg : cfg.threadNum = n)
    {k : Callback} {threadId : Nat} (hid : threadId < n) (hopen : (s.threads threadId).isOpen = true) :
    Ledger n (s.detach cfg t c k threadId) := by
  have hplace := (h.placed t c hat).2
  obtain ⟨slab, hslab⟩ := Slab.remove_isSome hplace
  obtain ⟨-, hget, hcount, -⟩ := Slab.remove_some hslab
  unfold Instance.detach
  rw [if_pos hat.2.2, hslab]
  simp only
  rw [if_neg (by omega), if_pos (by rw [threads_setThread]; split <;> [(subst threadId; exact hopen); exact hopen])]
  generalize hF : Instance.send _ _ _ = F
  have hth : ∀ i, F.threads i = { (if i = t then { s.threads t with coroutines := slab, pc := .call k }
      else s.threads i) with
      inbox := (s.threads i).inbox ++ if i = threadId then [.migration c] else [] } := by
    intro i
    rw [← hF, threads_send, threads_setThread, setCo_threads]
    split
    · subst i
      rfl
    · rfl
  have hcos : ∀ d, F.cos d = if d = c then { s.cos c with handler := none } else s.cos d := by
    intro d
    rw [← hF, send_cos, setThread_cos, cos_setCo]
  have hN : F.coN = s.coN := by rw [← hF]; rfl
  have hinbox : ∀ i, (F.threads i).inbox = (s.threads i).inbox ++ if i = threadId then [.migration c] else [] := by
    intro i
    rw [hth]
  have ho : OneThread s F t slab (.call k) := by
    constructor <;> intro i <;> rw [hth] <;> by_cases hi : i = t <;> simp [hi]
  have hc : OneCo s F c := by
    intro d hd
    rw [hN, hcos, if_neg hd]
    exact ⟨Iff.rfl, Iff.rfl, rfl, rfl, rfl⟩
  have hgone : ∀ i, ¬ F.Attached i c := fun i hi => by
    have := hi.2.2
    rw [hcos, if_pos rfl] at this
    cases this
  refine h.change ha.lt ha.ended ho hc rfl of_false rfl of_none (fun i hm => ?_) (fun hd => ?_) (fun hd => absurd hd.2 hat.2.1)
    (h.toPlaces.leaves ha.lt hat ho hc hslab hgone rfl) (fun d => ?_) ?_ (h.toBroadcast.of_eq ?_ ?_ ?_ ?_ ?_ ?_)
  · rw [hinbox, List.mem_append] at hm
    refine hm.resolve_right (fun hm => ?_)
    split at hm <;> simp at hm
  · rw [hcos, if_pos rfl] at hd
    exact absurd hd hat.2.1
  · have hsum := sum_change (f := fun i => (s.threads i).carried d) (g := fun i => (F.threads i).carried d) hid
      (fun i hi => by simp [Thread.carried, hinbox, hi])
    have hnew : (F.threads threadId).carried d = (s.threads threadId).carried d + if c = d then 1 else 0 := by
      simp [Thread.carried, hinbox, List.countP_append, List.countP_cons]
    have hf := h.flight d
    by_cases hdc : d = c
    · subst hdc
      have htr : F.Travelling d := by
        rw [Travelling, hN, hcos, if_pos rfl]
        exact ⟨hat.1, hat.2.1, rfl⟩
      rw [if_neg (fun htr => by have := htr.2.2; rw [hat.2.2] at this; cases this)] at hf
      rw [if_pos rfl] at hnew
      rw [if_pos htr]
      omega
    · rw [if_neg (fun hcd => hdc hcd.symm)] at hnew
      rw [if_congr (hc.travelling hdc) rfl rfl]
      omega
  · have hs1 := sum_change (f := fun i => (s.threads i).coroutines.count) (g := fun i => (F.threads i).coroutines.count)
      ha.lt (fun i hi => by simp only [ho.coroutines, if_neg hi])
    have hs2 := sum_change (f := fun i => (s.threads i).migrations) (g := fun i => (F.threads i).migrations) hid
      (fun i hi => by simp [Thread.migrations, hinbox, hi])
    have hm : (F.threads threadId).migrations = (s.threads threadId).migrations + 1 := by
      simp [Thread.migrations, hinbox, List.countP_append]
    have hnum : F.coroutinesNum = s.coroutinesNum := by rw [← hF]; rfl
    have := h.count
    simp only [ho.coroutines, if_pos] at hs1
    simp only [ho.coroutines]
    omega
  · rw [← hF]; rfl
  · rw [← hF]; exact Iff.rfl
  · intro i
    rw [hth]
    split <;> simp_all
  · intro i
    rw [hinbox, List.countP_append]
    split <;> simp
  · exact ho.terminated
  · intro i
    rw [ho.pc]
    split
    · subst i
      exact ha.terminating.symm
    · rfl

/-! ## Registering -/

theorem attends_register {todo : List Src} {hit : Option (Event × Reg)} {next : AfterRegister} {d : Nat}
    (hd : (Pc.register c todo hit next : Pc α).attends = some d) : d = c := by
  cases todo <;> cases hit <;> cases next <;> cases hd <;> rfl

/-- `register_all` goes on to its next source. -/
theorem moveRegister (h : Ledger n s) (ha : Acting n s t) (hat : s.Attached t c) (th : Thread S α) {todo : List Src}
    {hit : Option (Event × Reg)} {next : AfterRegister} (hpc : th.pc = .register c todo hit next)
    (he : ({ th with pc := .poll } : Thread S α).entry = ({ s.threads t with pc := .poll } : Thread S α).entry)
    (hop : th.isOpen = (s.threads t).isOpen) : Ledger n (s.setThread t th) := by
  refine h.move ha ?_ hop (fun d hd => ?_) (by rw [hpc]; rfl) (fun hs => by rw [hpc] at hs; cases hs)
    (by rw [hpc]; exact of_none)
  · rw [← he, Thread.entry, Thread.entry, hpc]
    rfl
  · rw [hpc] at hd
    rw [attends_register hd]
    exact hat

theorem register {s' : Instance S w α} (h : Ledger n s) (ht : t < n) {due : Bool} {slot tick : Nat}
    (hst : s.register t due slot tick = some s') : Ledger n s' := by
  unfold Instance.register at hst
  simp only at hst
  split at hst
  · rename_i c src todo hit next hpc
    have ha : Acting n s t := ⟨ht, by rw [hpc]; rfl, by rw [hpc]; rfl⟩
    have hat : s.Attached t c := h.attends t c (by rw [hpc]; rfl)
    split at hst
    · rename_i ch
      cases hst
      have h' : Ledger n (s.setChan ch ((s.chans ch).register ⟨tokenFromIds (s.cos c).id (s.srcs (.recv ch)).id, c,
          (s.cos c).sel, .recv ch, t⟩ t).1) := h.congr rfl rfl rfl rfl rfl
      exact h'.moveRegister ⟨ha.lt, ha.ended, ha.terminating⟩ hat { s.threads t with pc := .register c todo _ next }
        rfl rfl rfl
    · rename_i k
      split at hst
      · cases hst
        exact h.moveRegister ha hat _ rfl rfl rfl
      · split at hst
        · cases hst
          have h' : Ledger n { s with timeouts := Function.update s.timeouts k (some (slot, tick)) } :=
            h.congr rfl rfl rfl rfl rfl
          exact h'.moveRegister ⟨ha.lt, ha.ended, ha.terminating⟩ hat
            { s.threads t with wheel := _, pc := .register c todo hit next } rfl rfl rfl
        · cases hst
    · split at hst
      · cases hst
        exact h.moveRegister ha hat _ rfl rfl rfl
      · cases hst
        exact h.panic ha (by decide) (h.count_pos hat)
  · cases hst

theorem attached (h : Ledger n s) (ha : Acting n s t) (hat : s.Attached t c) : Ledger n (s.attached t c) := by
  unfold Instance.attached
  split
  · exact h.kill ha (.inr hat) (fun hr => by cases hr)
  · exact h.callback ha _ _

theorem afterRegister (h : Ledger n s) (ha : Acting n s t) {next : AfterRegister}
    (hat : next = .attached → s.Attached t c) : Ledger n (s.afterRegister t c next) := by
  cases next with
  | resumed k => exact h.setPc ha of_none rfl rfl rfl of_false of_none
  | attached => exact h.attached ha (hat rfl)

theorem registered (h : Ledger n s) (ht : t < n) {hit : Option (Event × Reg)} {next : AfterRegister}
    (hpc : (s.threads t).pc = .register c [] hit next) : Ledger n (s.registered t c hit next) := by
  have ha : Acting n s t := ⟨ht, by rw [hpc]; rfl, by rw [hpc]; rfl⟩
  cases hit with
  | none =>
    refine h.afterRegister ha (fun hn => h.attends t c ?_)
    rw [hpc, hn]
    rfl
  | some er =>
    have hat : s.Attached t c := h.attends t c (by rw [hpc]; rfl)
    have h' : Ledger n (s.setCo c { s.cos c with state := .ready, lastEvent := er.1, wokenBy := some er.2 }) :=
      h.setCo (iff_of_false (by simp) hat.2.1) rfl rfl (by simp)
    refine h'.setPc ⟨ha.lt, ha.ended, ha.terminating⟩ (fun d hd => ?_) rfl rfl rfl of_false of_none
    cases hd
    rw [Attached, setCo_self]
    exact ⟨hat.1, by simp, hat.2.2⟩

theorem clearTimeout (h : Ledger n s) {timeout : Option (Nat × Nat)} : Ledger n (s.clearTimeout t timeout) := by
  unfold Instance.clearTimeout
  simp only
  split
  · exact h
  · split
    · exact h.keep rfl rfl rfl
    · exact h

theorem deregisterSrc (h : Ledger n s) (ha : Acting n s t) (hat : s.Attached t c) {src : Src} :
    Ledger n (s.deregisterSrc t src) := by
  cases src with
  | recv ch => exact h.congr rfl rfl rfl rfl rfl
  | timer k => exact h.clearTimeout
  | io k =>
    simp only [Instance.deregisterSrc]
    split
    · exact h.keep rfl rfl rfl
    · exact h.panic ha (by decide) (h.count_pos hat)

theorem deregister (h : Ledger n s) (ht : t < n) {cfg : Config} (hcfg : cfg.threadNum = n) {next : AfterDeregister}
    (hpc : (s.threads t).pc = .deregister c next)
    (hok : ∀ k threadId, next = .migrate k threadId → threadId < n ∧ (s.threads threadId).isOpen = true) :
    Ledger n (s.deregister cfg t c next) := by
  have ha : Acting n s t := ⟨ht, by rw [hpc]; rfl, by rw [hpc]; rfl⟩
  have hat : s.Attached t c := h.attends t c (by rw [hpc]; rfl)
  unfold Instance.deregister
  split
  · rename_i src rest hb
    have h' : Ledger n (s.setCo c { s.cos c with blockedOn := rest }) :=
      h.setCo Iff.rfl rfl rfl (fun hf => absurd hf hat.2.1)
    refine h'.deregisterSrc (c := c) ⟨ha.lt, ha.ended, ha.terminating⟩ ?_
    rw [Attached, setCo_self]
    exact hat
  · cases next with
    | event => exact h.callback ha _ _
    | woken next => exact h.afterRegister ha (fun _ => hat)
    | migrate k threadId => exact h.detach ha hat hcfg (hok k threadId rfl).1 (hok k threadId rfl).2

theorem afterResume (h : Ledger n s) (ha : Acting n s t) {k : Callback} : Ledger n (s.afterResume t c k) := by
  unfold Instance.afterResume
  simp only
  split
  · rename_i hst
    have h' : Ledger n (s.setCo c { s.cos c with children := [], state := .ready }) :=
      h.setCo (iff_of_false (by simp) (by rw [hst]; simp)) rfl rfl (by simp)
    exact h'.move ⟨ha.lt, ha.ended, ha.terminating⟩ rfl rfl of_none rfl of_false of_none
  all_goals
    have h' : Ledger n (s.setCo c { s.cos c with children := [] }) := h.setCo Iff.rfl rfl rfl (h.cleared c)
    exact h'.move ⟨ha.lt, ha.ended, ha.terminating⟩ rfl rfl of_none rfl of_false of_none

/-! ## `mio::Handler` -/

theorem deliverSpawned (h : Ledger n s) (ha : Acting n s t) : Ledger n (s.deliverSpawned t) := by
  unfold Instance.deliverSpawned
  simp only
  split
  · refine callback (h.keep ?_ ?_ ?_) (ha.setThread ?_) _ _ <;> rfl
  · exact h.setPc ha of_none rfl rfl rfl of_false of_none

theorem deliverReady (h : Ledger n s) (ha : Acting n s t) {noSpawned : Bool} : Ledger n (s.deliverReady t noSpawned) := by
  unfold Instance.deliverReady
  simp only
  split
  · refine callback (h.keep ?_ ?_ ?_) (ha.setThread ?_) _ _ <;> rfl
  · cases noSpawned <;> exact h.setPc ha of_none rfl rfl rfl of_false of_none

theorem ready (h : Ledger n s) (ha : Acting n s t) {r : Reg} {e : EventSet} : Ledger n (s.ready t r e) := by
  unfold Instance.ready
  split
  · exact h.setPc ha of_none rfl rfl rfl of_false of_none
  · rename_i c hg
    obtain ⟨hat, -⟩ := h.stored t _ c hg
    split
    · split
      · exact h.panic ha (by decide) (Slab.count_pos hg)
      · rename_i rw _
        have h' : Ledger n (s.setCo c { s.cos c with
            state := .ready, lastEvent := ⟨(tokenToIds r.token).2, rw⟩, wokenBy := some r }) :=
          h.setCo (iff_of_false (by simp) hat.2.1) rfl rfl (by simp)
        refine h'.setPc ⟨ha.lt, ha.ended, ha.terminating⟩ (fun d hd => ?_) rfl rfl rfl of_false of_none
        cases hd
        rw [Attached, setCo_self]
        exact ⟨hat.1, by simp, hat.2.2⟩
    · exact h.setPc ha of_none rfl rfl rfl of_false of_none

@[simp] theorem get_grown (slab : Slab startingId Nat) (id : Nat) : (grown slab).get id = slab.get id := by
  unfold grown
  split
  · rfl
  · exact Slab.get_grow _ _ _

@[simp] theorem count_grown (slab : Slab startingId Nat) : (grown slab).count = slab.count := by
  unfold grown
  split
  · rfl
  · exact Slab.count_grow _ _

/-- **A migration arrives**: out of the message, into a slab. -/
theorem attach {s' : Instance S w α} (h : Ledger n s) (ha : Acting n s t) {id : Nat} {rest : List Message}
    (hin : (s.threads t).inbox = .migration c :: rest)
    (hst : (s.setThread t { s.threads t with inbox := rest }).attach t id c = some s') : Ledger n s' := by
  have hcar : (s.threads t).carried c = rest.countP (Message.carries c) + 1 := by
    simp [Thread.carried, hin]
  have htr : s.Travelling c := by
    have hf := h.flight c
    have := le_sum (fun i => (s.threads i).carried c) ha.lt
    by_contra hno
    rw [if_neg hno] at hf
    omega
  unfold Instance.attach at hst
  simp only [setThread_self, setThread_cos] at hst
  split at hst
  swap
  · cases hst
  rename_i slab hslab
  obtain ⟨-, -, hcount, -⟩ := Slab.insertAt_some hslab
  rw [count_grown] at hcount
  cases hst
  generalize hF : Instance.setThread _ _ _ = F
  have hth : ∀ i, F.threads i = if i = t then { s.threads t with
      inbox := rest, coroutines := slab, pc := .register c (s.cos c).blockedOn none .attached } else s.threads i := by
    intro i
    rw [← hF, threads_setThread, setCo_threads]
    split
    · rfl
    · rw [setThread_ne _ _ ‹_›]
  have hcos : ∀ d, F.cos d = if d = c then { s.cos c with id := id, handler := some t } else s.cos d := by
    intro d
    rw [← hF, setThread_cos, cos_setCo, setThread_cos]
  have hN : F.coN = s.coN := by rw [← hF]; rfl
  have hinbox : ∀ i, (F.threads i).inbox = if i = t then rest else (s.threads i).inbox := by
    intro i
    rw [hth]
    split <;> rfl
  have ho : OneThread s F t slab (.register c (s.cos c).blockedOn none .attached) := by
    constructor <;> intro i <;> rw [hth] <;> by_cases hi : i = t <;> simp [hi]
  have hc : OneCo s F c := by
    intro d hd
    rw [hN, hcos, if_neg hd]
    exact ⟨Iff.rfl, Iff.rfl, rfl, rfl, rfl⟩
  have hnew : ∀ i, ¬ s.Attached i c := fun i hi => by
    have := htr.2.2.symm.trans hi.2.2
    cases this
  have hat : F.Attached t c := by
    rw [Attached, hN, hcos, if_pos rfl]
    exact ⟨htr.1, htr.2.1, rfl⟩
  refine h.change ha.lt ha.ended ho hc rfl of_false rfl of_none (fun i hm => ?_) (fun hd => ?_) (fun hd => absurd hd.2 htr.2.1)
    (h.toPlaces.enters ha.lt (get_grown _) ho hc hslab hnew hat (by rw [hcos, if_pos rfl])
      (fun d hd => by rw [attends_register hd]; exact hat)) (fun d => ?_) ?_
    (h.toBroadcast.of_eq ?_ ?_ ?_ ?_ ?_ ?_)
  · rw [hinbox] at hm
    split at hm
    · subst i
      rw [hin]
      exact List.mem_cons_of_mem _ hm
    · exact hm
  · rw [hcos, if_pos rfl] at hd
    exact absurd hd htr.2.1
  · have hsum := sum_change (f := fun i => (s.threads i).carried d) (g := fun i => (F.threads i).carried d) ha.lt
      (fun i hi => by simp [Thread.carried, hinbox, hi])
    have hrest : (s.threads t).carried d = (F.threads t).carried d + if c = d then 1 else 0 := by
      simp [Thread.carried, hinbox, hin, List.countP_cons]
    have hf := h.flight d
    by_cases hdc : d = c
    · subst hdc
      rw [if_pos htr] at hf
      rw [if_pos rfl] at hrest
      rw [if_neg (fun htr' : F.Travelling d => by have := htr'.2.2.symm.trans hat.2.2; cases this)]
      omega
    · rw [if_neg (fun hcd => hdc hcd.symm)] at hrest
      rw [if_congr (hc.travelling hdc) rfl rfl]
      omega
  · have hs1 := sum_change (f := fun i => (s.threads i).coroutines.count) (g := fun i => (F.threads i).coroutines.count)
      ha.lt (fun i hi => by simp only [ho.coroutines, if_neg hi])
    have hs2 := sum_change (f := fun i => (s.threads i).migrations) (g := fun i => (F.threads i).migrations) ha.lt
      (fun i hi => by simp [Thread.migrations, hinbox, hi])
    have hm : (s.threads t).migrations = (F.threads t).migrations + 1 := by
      simp [Thread.migrations, hinbox, hin, List.countP_cons]
    have hnum : F.coroutinesNum = s.coroutinesNum := by rw [← hF]; rfl
    have := h.count
    simp only [ho.coroutines, if_pos] at hs1
    simp only [ho.coroutines]
    omega
  · rw [← hF]; rfl
  · rw [← hF]; exact Iff.rfl
  · intro i
    rw [hth]
    split <;> simp_all
  · intro i
    rw [hinbox]
    split
    · subst i
      rw [hin]
      rfl
    · rfl
  · exact ho.terminated
  · intro i
    rw [ho.pc]
    split
    · subst i
      exact ha.terminating.symm
    · rfl

/-- No event loop is sent more than one `Terminate`. -/
theorem terminates_le (h : Ledger n s) (ht : t < n) : (s.threads t).terminates ≤ 1 := by
  have hb := h.once
  by_cases h0 : s.broadcasts = 0
  · rw [(h.quiet h0).2 t]
    exact Nat.zero_le _
  · by_cases hall : ∀ i, (s.threads i).pc.terminating = none
    · rw [h.everywhere (by omega) hall t ht]
    · push Not at hall
      obtain ⟨i, hi⟩ := hall
      obtain ⟨j, hj⟩ := Option.ne_none_iff_exists'.1 hi
      rw [(h.broadcasting i j hj).2.2.1 t ht]
      split <;> omega

/-- `Message::Terminate` is handled. -/
theorem terminate (h : Ledger n s) (ha : Acting n s t) {rest : List Message}
    (hin : (s.threads t).inbox = .terminate :: rest) (hpoll : (s.threads t).pc.isPoll = true) :
    Ledger n (s.setThread t { s.threads t with inbox := rest, terminated := true }) := by
  have hpc := Pc.eq_poll hpoll
  have hbook := h.terminated t
  have hle := h.terminates_le ha.lt
  rw [hin, List.countP_cons_of_pos (by rfl)] at hbook
  have htd : (s.threads t).terminated = false := by
    cases hb : (s.threads t).terminated
    · rfl
    · rw [hb] at hbook
      simp at hbook
      omega
  have hpl : Places n (s.setThread t { s.threads t with inbox := rest, terminated := true }) := by
    refine h.toPlaces.setThread rfl (fun c => ?_) ?_ (by rw [hpc]; exact of_none)
      (fun why hw => by rw [hpc] at hw; cases hw) (h.closed t)
      (fun _ => rfl) (h.outside t) ⟨fun hm => (h.caught t).1 ?_, (h.caught t).2⟩ (h.ended t)
    · simp [Thread.carried, hin]
    · simp [Thread.migrations, hin]
    · rw [hin]
      exact List.mem_cons_of_mem _ hm
  refine ⟨hpl, ⟨fun h0 => ⟨(h.quiet h0).1, fun i => ?_⟩, h.once, h.empty, fun i => ?_, fun i j hi => ?_,
    fun h1 hall i hi => ?_⟩⟩
  · have := (h.quiet h0).2
    rw [threads_setThread]
    split
    · exact this t
    · exact this i
  · rw [threads_setThread]
    split
    · rw [htd] at hbook
      simpa using hbook
    · exact h.terminated i
  · have hpc' : ∀ k, ((s.setThread t { s.threads t with inbox := rest, terminated := true }).threads k).pc =
        (s.threads k).pc := by
      intro k
      rw [threads_setThread]
      split
      · subst k
        rfl
      · rfl
    have hter : ∀ k, ((s.setThread t { s.threads t with inbox := rest, terminated := true }).threads k).terminates =
        (s.threads k).terminates := by
      intro k
      rw [threads_setThread]
      split
      · subst k
        rfl
      · rfl
    simp only [hpc'] at hi
    simp only [hpc', hter]
    exact h.broadcasting i j hi
  · have hpc' : ∀ k, ((s.setThread t { s.threads t with inbox := rest, terminated := true }).threads k).pc =
        (s.threads k).pc := by
      intro k
      rw [threads_setThread]
      split
      · subst k
        rfl
      · rfl
    simp only [hpc'] at hall
    rw [threads_setThread]
    split
    · subst i
      exact h.everywhere h1 hall t hi
    · exact h.everywhere h1 hall i hi

theorem notify {s' : Instance S w α} (h : Ledger n s) (ht : t < n) (hpoll : (s.threads t).pc.isPoll = true) {id : Nat}
    (hst : s.notify t id = some s') : Ledger n s' := by
  have hpc := Pc.eq_poll hpoll
  have ha : Acting n s t := ⟨ht, by rw [hpc]; rfl, by rw [hpc]; rfl⟩
  unfold Instance.notify at hst
  simp only at hst
  split at hst
  · cases hst
  · rename_i m rest hin
    cases m with
    | channelMsg r =>
      cases hst
      have h' : Ledger n (s.setThread t { s.threads t with inbox := rest }) :=
        h.keep (by simp [Thread.entry, hin]) rfl rfl
      exact h'.ready (ha.setThread rfl)
    | migration c => exact h.attach ha hin hst
    | propagatePanic =>
      refine absurd ?_ (h.caught t).1
      rw [hin]
      exact List.mem_cons_self
    | shutdown =>
      cases hst
      have h' : Ledger n (s.setThread t { s.threads t with inbox := rest }) :=
        h.keep (by simp [Thread.entry, hin]) rfl rfl
      refine h'.move (t := t) (ha.setThread rfl) ?_ ?_ of_none rfl of_false of_none
      · rw [setThread_self]
        rfl
      · rw [setThread_self]
    | terminate =>
      cases hst
      have := h.terminate ha hin hpoll
      unfold Instance.setThread at this ⊢
      rwa [Function.update_idem]

theorem shutdownNext (h : Ledger n s) (ha : Acting n s t) {i last : Nat} : Ledger n (s.shutdownNext t i last) := by
  unfold Instance.shutdownNext
  split
  · exact h.setPc ha of_none rfl rfl rfl of_false of_none
  · split
    · exact h
    · rename_i c hg
      exact h.kill ha (.inr (h.stored t _ c hg).1) (fun hr => by cases hr)

theorem stopNext (h : Ledger n s) (ht : t < n) (hpc : (s.threads t).pc = .stopping)
    (hok : ∀ hd, ((s.threads t).held ++ (s.threads t).spawned ++ (s.threads t).ready).head? = some hd →
      s.Enterable t hd.co) : Ledger n (s.stopNext t) := by
  have ha : Acting n s t := ⟨ht, by rw [hpc]; rfl, by rw [hpc]; rfl⟩
  have htd : (s.threads t).terminated = true := h.stopping t (by rw [hpc]; rfl)
  have drop : ∀ (th : Thread S α) (hd : Handle), th.entry = (s.threads t).entry → th.isOpen = (s.threads t).isOpen →
      th.pc = (s.threads t).pc → s.Enterable t hd.co → Ledger n ((s.setThread t th).kill t hd.co .stopping) := by
    intro th hd he hop hp hen
    refine (h.keep he hop hp).kill (ha.setThread hp) hen (fun _ => ?_)
    simp only [Thread.entry, Prod.mk.injEq] at he
    rw [setThread_self, he.2.2.1, htd]
  unfold Instance.stopNext
  simp only
  split
  · rename_i hd rest hheld
    exact drop { s.threads t with held := rest } hd rfl rfl rfl (hok hd (by rw [hheld]; rfl))
  · rename_i hd rest hheld hspawned
    exact drop { s.threads t with spawned := rest } hd rfl rfl rfl (hok hd (by rw [hheld, hspawned]; rfl))
  · rename_i hd rest hheld hspawned hready
    exact drop { s.threads t with ready := rest } hd rfl rfl rfl (hok hd (by rw [hheld, hspawned, hready]; rfl))
  · refine h.setThread ?_ of_none (fun why hw => by cases hw) (fun _ => rfl) (fun _ => htd)
      (fun hn => absurd ht (Nat.not_lt.2 hn)) of_none
    rw [Thread.entry, Thread.entry, hpc]
    rfl

/-! ## The code of a coroutine -/

/-- Before the last coroutine is gone, nobody is broadcasting. -/
theorem not_terminating (h : Ledger n s) (h0 : s.broadcasts = 0) (i : Nat) : (s.threads i).pc.terminating = none := by
  cases hi : (s.threads i).pc.terminating with
  | none => rfl
  | some j =>
    have := (h.broadcasting i j hi).1
    omega

/-- **A coroutine completes.** -/
theorem finish (h : Ledger n s) (ht : t < n) {cfg : Config} (hcatch : cfg.catchPanics = true) {ret : Ret}
    {res : ExitStatus α} (hpc : (s.threads t).pc = .exec c ret .user) : Ledger n (s.finish cfg t c ret res) := by
  have ha : Acting n s t := ⟨ht, by rw [hpc]; rfl, by rw [hpc]; rfl⟩
  have hat : s.Attached t c := h.attends t c (by rw [hpc]; rfl)
  have h0 := h.not_broadcast ht (h.count_pos hat)
  have hpos := h.num_pos ht (h.count_pos hat)
  have hquiet := (h.quiet h0).2
  obtain ⟨slab, hslab⟩ := Slab.remove_isSome (h.placed t c hat).2
  obtain ⟨-, -, hcount, -⟩ := Slab.remove_some hslab
  unfold Instance.finish
  simp only [hslab]
  generalize hpc' : (Pc.exec c ret (if s.coroutinesNum = 1 then Job.terminate 0 res else cfg.report res) : Pc α) = pc'
  have htg : pc'.terminating = if s.coroutinesNum = 1 then some 0 else none := by
    rw [← hpc']
    split <;> cases res <;> simp [Config.report, hcatch]
  have hatt : pc'.attends = none ∧ pc'.isEnded = false ∧ pc'.isPropagate = false ∧
      (pc'.isStopping = true → (s.threads t).terminated = true) ∧ ∀ d, pc'.ending = some d → d = c := by
    rw [← hpc']
    have hst := h.stopping t
    rw [hpc] at hst
    refine ⟨?_, rfl, ?_, ?_, fun d => ?_⟩
    · split <;> cases res <;> simp [Config.report, hcatch]
    · split <;> cases res <;> simp [Config.report, hcatch]
    · cases ret <;> exact hst
    · split <;> cases res <;> simp [Config.report, hcatch] <;> exact Eq.symm
  generalize hF : Instance.setThread _ _ _ = F
  have hth : ∀ i, F.threads i = if i = t then { s.threads t with coroutines := slab, pc := pc' } else s.threads i := by
    intro i
    rw [← hF, threads_setThread]
    rfl
  have hcos : ∀ d, F.cos d = if d = c then { s.cos c with blockedOn := [], state := .finished } else s.cos d := by
    intro d
    rw [← hF, setThread_cos]
    exact cos_setCo _ _ _ _
  have hN : F.coN = s.coN := by rw [← hF]; rfl
  have hnum : F.coroutinesNum = s.coroutinesNum - 1 := by rw [← hF]; rfl
  have hbr : F.broadcasts = if s.coroutinesNum = 1 then s.broadcasts + 1 else s.broadcasts := by rw [← hF]; rfl
  have hsame : ∀ i, (F.threads i).inbox = (s.threads i).inbox ∧ (F.threads i).terminates = (s.threads i).terminates := by
    intro i
    rw [hth]
    split
    · subst i
      exact ⟨rfl, rfl⟩
    · exact ⟨rfl, rfl⟩
  have ho : OneThread s F t slab pc' := by
    constructor <;> intro i <;> rw [hth] <;> by_cases hi : i = t <;> simp [hi]
  have hc : OneCo s F c := by
    intro d hd
    rw [hN, hcos, if_neg hd]
    exact ⟨Iff.rfl, Iff.rfl, rfl, rfl, rfl⟩
  have hgone : (F.cos c).state = .finished := by rw [hcos, if_pos rfl]
  have hdone : F.Completed c := ⟨by rw [hN]; exact hat.1, hgone⟩
  refine h.change ht ha.ended ho hc hatt.2.1 hatt.2.2.2.1 hatt.2.2.1 (fun d hd => by rw [hatt.2.2.2.2 d hd]; exact hdone)
    (fun i hm => by rwa [(hsame i).1] at hm) (fun _ => by rw [hcos, if_pos rfl]) (fun _ => hdone)
    (h.toPlaces.leaves ht hat ho hc hslab (fun i hi => hi.2.1 hgone) hatt.1) (fun d => ?_) ?_ ?_
  · simp only [Thread.carried, (hsame _).1]
    have hf := h.flight d
    simp only [Thread.carried] at hf
    rw [hf]
    by_cases hdc : d = c
    · subst hdc
      rw [if_neg (fun htr => by have := htr.2.2.symm.trans hat.2.2; cases this), if_neg (fun htr => htr.2.1 hgone)]
    · exact if_congr (hc.travelling hdc).symm rfl rfl
  · have hs1 := sum_change (f := fun i => (s.threads i).coroutines.count) (g := fun i => (F.threads i).coroutines.count)
      ht (fun i hi => by simp only [ho.coroutines, if_neg hi])
    have hmig : ∑ i ∈ Finset.range n, (F.threads i).migrations = ∑ i ∈ Finset.range n, (s.threads i).migrations := by
      simp only [Thread.migrations, (hsame _).1]
    have := h.count
    rw [hmig, hnum]
    simp only [ho.coroutines, if_pos] at hs1
    simp only [ho.coroutines]
    omega
  · by_cases hlast : s.coroutinesNum = 1
    · rw [if_pos hlast] at htg hbr
      refine ⟨fun hb => ?_, by omega, fun _ => by omega, fun i => ?_, fun i j hi => ?_, fun _ hall => ?_⟩
      · omega
      · rw [(hsame i).1, (hsame i).2, ho.terminated]
        exact h.terminated i
      · rw [ho.pc] at hi
        split at hi
        · rename_i hit
          rw [htg] at hi
          cases hi
          refine ⟨by omega, Nat.zero_le _, fun k _ => ?_, fun k hk => ?_⟩
          · rw [(hsame k).2, hquiet k]
            rfl
          · rw [ho.pc, if_neg (by omega)]
            exact h.not_terminating h0 k
        · rw [h.not_terminating h0 i] at hi
          cases hi
      · have := hall t
        rw [ho.pc, if_pos rfl, htg] at this
        cases this
    · rw [if_neg hlast] at htg hbr
      refine h.toBroadcast.of_eq hbr (by omega) (fun i => (hsame i).2) (fun i => by rw [(hsame i).1]) ho.terminated
        (fun i => ?_)
      rw [ho.pc]
      split
      · subst i
        rw [htg, ha.terminating]
      · rfl

/-- **A coroutine is spawned.** -/
theorem spawn (h : Ledger n s) (ht : t < n) {ret : Ret} (hpc : (s.threads t).pc = .exec c ret .user) {id : Nat}
    {slab : Slab startingId Nat} (hslab : (grown (s.threads t).coroutines).insertAt id s.coN = some slab) :
    Ledger n ((({ s with coN := s.coN + 1, coroutinesNum := s.coroutinesNum + 1 }.setCo c
      { s.cos c with children := (s.cos c).children ++ [s.coN] }).setCo s.coN (Coroutine.new id (some t))).setThread t
        { s.threads t with coroutines := slab }) := by
  have ha : Acting n s t := ⟨ht, by rw [hpc]; rfl, by rw [hpc]; rfl⟩
  have hatc : s.Attached t c := h.attends t c (by rw [hpc]; rfl)
  have hpos := h.num_pos ht (h.count_pos hatc)
  obtain ⟨-, -, hcount, -⟩ := Slab.insertAt_some hslab
  rw [count_grown] at hcount
  generalize hF : Instance.setThread _ _ _ = F
  have hth : ∀ i, F.threads i = if i = t then { s.threads t with coroutines := slab } else s.threads i := by
    intro i
    rw [← hF, threads_setThread]
    rfl
  have hcos : ∀ d, F.cos d = if d = s.coN then Coroutine.new id (some t) else
      if d = c then { s.cos c with children := (s.cos c).children ++ [s.coN] } else s.cos d := by
    intro d
    rw [← hF, setThread_cos, cos_setCo, cos_setCo]
  have hN : F.coN = s.coN + 1 := by rw [← hF]; rfl
  have hnum : F.coroutinesNum = s.coroutinesNum + 1 := by rw [← hF]; rfl
  have hsame : ∀ i, (F.threads i).inbox = (s.threads i).inbox ∧ (F.threads i).terminates = (s.threads i).terminates ∧
      (F.threads i).pc = (s.threads i).pc := by
    intro i
    rw [hth]
    split
    · subst i
      exact ⟨rfl, rfl, rfl⟩
    · exact ⟨rfl, rfl, rfl⟩
  have ho : OneThread s F t slab (s.threads t).pc := by
    constructor <;> intro i <;> rw [hth] <;> by_cases hi : i = t <;> simp [hi]
  have hc : OneCo s F s.coN := by
    intro d hd
    rw [hN, hcos, if_neg hd]
    refine ⟨by omega, ?_⟩
    split
    · subst d
      exact ⟨Iff.rfl, rfl, rfl, rfl⟩
    · exact ⟨Iff.rfl, rfl, rfl, rfl⟩
  have hnew : ∀ i, ¬ s.Attached i s.coN := fun i hi => Nat.lt_irrefl _ hi.1
  have hat : F.Attached t s.coN := by
    rw [Attached, hN, hcos, if_pos rfl]
    exact ⟨Nat.lt_succ_self _, by simp [Coroutine.new], rfl⟩
  refine h.change ht ha.ended ho hc ha.ended (h.stopping t) (h.caught t).2 (by rw [hpc]; exact of_none)
    (fun i hm => by rwa [(hsame i).1] at hm) (fun _ => by rw [hcos, if_pos rfl]; rfl)
    (fun hd => absurd hd.1 (Nat.lt_irrefl _))
    (h.toPlaces.enters ht (get_grown _) ho hc hslab hnew hat (by rw [hcos, if_pos rfl]; rfl) (fun d hd => ?_))
    (fun d => ?_) ?_ (h.toBroadcast.of_eq ?_ ?_ ?_ ?_ ho.terminated ?_)
  · have hdat := h.attends t d hd
    exact (hc.attached (Nat.ne_of_lt hdat.1)).2 hdat
  · simp only [Thread.carried, (hsame _).1]
    have hf := h.flight d
    simp only [Thread.carried] at hf
    rw [hf]
    by_cases hdc : d = s.coN
    · subst hdc
      rw [if_neg (fun htr => Nat.lt_irrefl _ htr.1),
        if_neg (fun htr : F.Travelling s.coN => by have := htr.2.2.symm.trans hat.2.2; cases this)]
    · exact if_congr (hc.travelling hdc).symm rfl rfl
  · have hs1 := sum_change (f := fun i => (s.threads i).coroutines.count) (g := fun i => (F.threads i).coroutines.count)
      ht (fun i hi => by simp only [ho.coroutines, if_neg hi])
    have hmig : ∑ i ∈ Finset.range n, (F.threads i).migrations = ∑ i ∈ Finset.range n, (s.threads i).migrations := by
      simp only [Thread.migrations, (hsame _).1]
    have := h.count
    rw [hmig, hnum]
    simp only [ho.coroutines, if_pos] at hs1
    simp only [ho.coroutines]
    omega
  · rw [← hF]; rfl
  · omega
  · exact fun i => (hsame i).2.1
  · exact fun i => by rw [(hsame i).1]
  · exact fun i => by rw [(hsame i).2.2]

/-- The code of a coroutine goes on to another place. -/
theorem moveExec (h : Ledger n s) (ht : t < n) {ret : Ret} {j j' : Job α} (hpc : (s.threads t).pc = .exec c ret j)
    (htg : (Pc.exec c ret j : Pc α).terminating = none)
    (hat : ∀ d, (Pc.exec c ret j' : Pc α).attends = some d → s.Attached t d)
    (htg' : (Pc.exec c ret j' : Pc α).terminating = none) (hpr : (Pc.exec c ret j' : Pc α).isPropagate = false)
    (hend : ∀ d, (Pc.exec c ret j' : Pc α).ending = some d → s.Completed d) :
    Ledger n (s.setPc t (.exec c ret j')) := by
  refine h.setPc ⟨ht, by rw [hpc]; rfl, by rw [hpc]; exact htg⟩ hat rfl htg' hpr (fun hs => h.stopping t ?_) hend
  rw [hpc]
  revert hs
  cases ret <;> exact id

/-- A message the ledger does not read is sent. -/
theorem send (h : Ledger n s) {l : Nat} {m : Message} (hm : m.isBooked = false) : Ledger n (s.send l m) := by
  refine h.keep ?_ rfl rfl
  simp only [Thread.entry, List.filter_append, List.filter_cons, hm]
  simp

theorem user {s' : Instance S w α} (h : Ledger n s) (ht : t < n) {cfg : Config} (hcatch : cfg.catchPanics = true)
    {u : UserAct α} (hst : s.user cfg t u = some s') : Ledger n s' := by
  unfold Instance.user at hst
  simp only at hst
  split at hst
  swap
  · cases hst
  rename_i c ret hpc
  have ha : Acting n s t := ⟨ht, by rw [hpc]; rfl, by rw [hpc]; rfl⟩
  have hat : s.Attached t c := h.attends t c (by rw [hpc]; rfl)
  have hstop : ret = .stopping → (s.threads t).terminated = true := by
    rintro rfl
    exact h.stopping t (by rw [hpc]; rfl)
  cases u with
  | select l =>
    cases hst
    have h' : Ledger n { s with srcs := selectAdd s.srcs (s.cos c).blockedOn.length l } := h.congr rfl rfl rfl rfl rfl
    refine (h'.setCo (c := c) ?_ ?_ ?_ ?_).leave ⟨ha.lt, ha.ended, ha.terminating⟩ (.inr ?_) hstop
    · exact iff_of_false (by simp) hat.2.1
    · rfl
    · rfl
    · simp
    · rw [Attached, setCo_self]
      exact ⟨hat.1, by simp, hat.2.2⟩
  | yieldNow =>
    cases hst
    refine (h.setCo (c := c) ?_ ?_ ?_ ?_).leave ⟨ha.lt, ha.ended, ha.terminating⟩ (.inr ?_) hstop
    · exact iff_of_false (by simp) hat.2.1
    · rfl
    · rfl
    · simp
    · rw [Attached, setCo_self]
      exact ⟨hat.1, by simp, hat.2.2⟩
  | spawn id =>
    simp only at hst
    split at hst
    · rename_i slab hslab
      cases hst
      exact h.spawn ht hpc hslab
    · cases hst
  | shutdown =>
    cases hst
    have h' : Ledger n { s with shutdownCalled := true } := h.congr rfl rfl rfl rfl rfl
    exact h'.moveExec (c := c) ht hpc rfl (fun d hd => by cases hd; exact hat) rfl rfl (by simp)
  | finish res =>
    cases hst
    exact h.finish ht hcatch hpc

theorem notifyFrom (h : Ledger n s) (ht : t < n) {ret : Ret} {res : Option (ExitStatus α)}
    (hpc : (s.threads t).pc = .exec c ret (.exit res)) {nt : Notify Reg Nat} (hsome : nt ≠ .unwrapNone)
    (hopen : ∀ l r, nt = .channelMsg l r → (s.threads l).isOpen = true) :
    Ledger n (s.notifyFrom t (.exec c ret (.exit none)) nt) := by
  have h' : Ledger n (s.setPc t (.exec c ret (.exit none))) :=
    h.moveExec ht hpc rfl of_none rfl rfl (fun d hd => by cases hd; exact h.ended t c (by rw [hpc]; rfl))
  cases nt with
  | nothing => exact h'
  | channelMsg l r =>
    simp only [Instance.notifyFrom]
    rw [if_pos (hopen l r rfl)]
    exact h'.send rfl
  | unwrapNone => exact absurd rfl hsome

/-- The loop of thread `i` is open while `Terminate` is still to be sent to it. -/
theorem open_of_terminating (h : Ledger n s) {i : Nat} (hi : i < n) (htg : (s.threads t).pc.terminating = some i) :
    (s.threads i).isOpen = true := by
  obtain ⟨hb, -, hter, -⟩ := h.broadcasting t i htg
  have hsum := h.count
  rw [h.empty hb] at hsum
  have hle := le_sum (fun j => (s.threads j).coroutines.count) hi
  by_contra hopen
  have hend := h.closed i (Bool.eq_false_iff.2 hopen)
  have hter := hter i hi
  rw [if_neg (Nat.lt_irrefl i)] at hter
  cases hp : (s.threads i).pc <;> rw [hp] at hend <;> cases hend
  · have htd := h.stopping i (by rw [hp]; rfl)
    have := h.terminated i
    rw [htd, hter] at this
    simp at this
  · have := (h.panicked i _ hp).2
    omega

/-- `broadcast_terminate` sends to its next thread. -/
theorem terminateNext (h : Ledger n s) (ht : t < n) {ret : Ret} {i : Nat} {res : ExitStatus α}
    (hpc : (s.threads t).pc = .exec c ret (.terminate i res)) (hi : i < n) {F : Instance S w α}
    (hF : ∀ k, F.threads k = { s.threads k with
      pc := if k = t then .exec c ret (.terminate (i + 1) res) else (s.threads k).pc
      inbox := (s.threads k).inbox ++ if k = i then [.terminate] else []
      terminates := (s.threads k).terminates + if k = i then 1 else 0 })
    (hcos : F.cos = s.cos) (hN : F.coN = s.coN) (hnum : F.coroutinesNum = s.coroutinesNum)
    (hbr : F.broadcasts = s.broadcasts) : Ledger n F := by
  have htg : (s.threads t).pc.terminating = some i := by rw [hpc]; rfl
  obtain ⟨hb, -, hter, hother⟩ := h.broadcasting t i htg
  have ho : OneThread s F t (s.threads t).coroutines (.exec c ret (.terminate (i + 1) res)) := by
    constructor <;> intro k <;> rw [hF]
    by_cases hk : k = t <;> simp [hk]
  have hin : ∀ k, (F.threads k).inbox = (s.threads k).inbox ++ if k = i then [.terminate] else [] := by
    intro k
    rw [hF]
  have hco : ∀ k, (F.threads k).coroutines = (s.threads k).coroutines := by
    intro k
    rw [hF]
  have hat : ∀ k d, F.Attached k d ↔ s.Attached k d := fun k d => by rw [Attached, Attached, hcos, hN]
  have htr : ∀ d, F.Travelling d ↔ s.Travelling d := fun d => by rw [Travelling, Travelling, hcos, hN]
  have hcar : ∀ k d, (F.threads k).carried d = (s.threads k).carried d := by
    intro k d
    rw [Thread.carried, hin, List.countP_append]
    split <;> simp [Thread.carried]
  have hmig : ∀ k, (F.threads k).migrations = (s.threads k).migrations := by
    intro k
    rw [Thread.migrations, hin, List.countP_append]
    split <;> simp [Thread.migrations]
  have hc : OneCo s F s.coN := fun d _ => ⟨by rw [hN], by rw [hcos], by rw [hcos], by rw [hcos], by rw [hcos]⟩
  have hdone : ∀ d, F.Completed d ↔ s.Completed d := fun d => by rw [Completed, Completed, hcos, hN]
  refine h.change ht (by rw [hpc]; rfl) ho hc rfl (fun hs => h.stopping t ?_) rfl (fun d hd => (hdone d).2 (h.ended t d ?_))
    (fun k hm => ?_) (fun hf => ?_) (hdone _).2 ⟨fun k id d hd => ?_, fun k d hd => ?_, fun k d hd => ?_⟩ (fun d => ?_) ?_ ?_
  · rw [hpc]
    revert hs
    cases ret <;> exact id
  · rw [hpc]
    exact hd
  · rw [hin, List.mem_append] at hm
    refine hm.resolve_right (fun hm => ?_)
    split at hm <;> simp at hm
  · rw [hcos] at hf ⊢
    exact h.cleared _ hf
  · rw [hco] at hd
    rw [hat, hcos]
    exact h.stored k id d hd
  · rw [hco, hcos]
    exact h.placed k d ((hat k d).1 hd)
  · rw [ho.pc] at hd
    rw [hat]
    split at hd
    · cases hd
    · exact h.attends k d hd
  · rw [Finset.sum_congr rfl (fun k _ => hcar k d), if_congr (htr d) rfl rfl]
    exact h.flight d
  · rw [Finset.sum_congr rfl (fun k _ => by rw [hco]), Finset.sum_congr rfl (fun k _ => hmig k), hnum]
    exact h.count
  · refine ⟨fun h0 => ?_, by rw [hbr]; exact h.once, fun _ => by rw [hnum]; exact h.empty hb, fun k => ?_,
      fun k j hj => ?_, fun _ hall => ?_⟩
    · rw [hbr] at h0
      omega
    · have := h.terminated k
      rw [hin, ho.terminated, List.countP_append, hF]
      split <;> simp <;> omega
    · rw [ho.pc] at hj
      split at hj
      · rename_i hk
        subst hk
        cases hj
        refine ⟨by omega, hi, fun k hk => ?_, fun k hk => ?_⟩
        · rw [hF]
          simp only
          rw [hter k hk]
          split <;> (split <;> split) <;> omega
        · rw [ho.pc, if_neg hk]
          exact hother k hk
      · rename_i hk
        rw [hother k hk] at hj
        cases hj
    · have := hall t
      rw [ho.pc, if_pos rfl] at this
      cases this

/-- `broadcast_terminate` is through. -/
theorem terminateLast (h : Ledger n s) (ht : t < n) {ret : Ret} {i : Nat} {res : ExitStatus α}
    (hpc : (s.threads t).pc = .exec c ret (.terminate i res)) (hi : n ≤ i) {j : Job α}
    (hj : (Pc.exec c ret j : Pc α).attends = none ∧ (Pc.exec c ret j : Pc α).terminating = none ∧
      (Pc.exec c ret j : Pc α).isPropagate = false) : Ledger n (s.setPc t (.exec c ret j)) := by
  have hdone : s.Completed c := h.ended t c (by rw [hpc]; rfl)
  have htg : (s.threads t).pc.terminating = some i := by rw [hpc]; rfl
  obtain ⟨hb, hin, hter, hother⟩ := h.broadcasting t i htg
  have hpc' : ∀ k, ((s.setPc t (.exec c ret j)).threads k).pc = if k = t then .exec c ret j else (s.threads k).pc := by
    intro k
    rw [Instance.setPc, threads_setThread]
    split <;> rfl
  have hsame : ∀ k, ((s.setPc t (.exec c ret j)).threads k).terminates = (s.threads k).terminates ∧
      ((s.setPc t (.exec c ret j)).threads k).inbox = (s.threads k).inbox ∧
      ((s.setPc t (.exec c ret j)).threads k).terminated = (s.threads k).terminated := by
    intro k
    rw [Instance.setPc, threads_setThread]
    split
    · subst k
      exact ⟨rfl, rfl, rfl⟩
    · exact ⟨rfl, rfl, rfl⟩
  refine ⟨h.toPlaces.setThread rfl (fun _ => rfl) rfl (by rw [hj.1]; exact of_none) (fun why hw => by cases hw)
    (fun hop => ?_) (fun hs => ?_)
    (fun hn => absurd ht (Nat.not_lt.2 hn)) ⟨(h.caught t).1, hj.2.2⟩ (fun d hd => ?_), ⟨fun h0 => ?_, h.once, h.empty, fun k => ?_,
    fun k l hl => ?_, fun _ _ k hk => ?_⟩⟩
  · have := h.closed t hop
    rw [hpc] at this
    cases this
  · refine h.stopping t ?_
    rw [hpc]
    revert hs
    cases ret <;> exact id
  · obtain rfl : d = c := by
      cases j <;> cases hd <;> rfl
    exact hdone
  · have h0' : s.broadcasts = 0 := h0
    omega
  · obtain ⟨e1, e2, e3⟩ := hsame k
    rw [e1, e2, e3]
    exact h.terminated k
  · rw [hpc'] at hl
    split at hl
    · rw [hj.2.1] at hl
      cases hl
    · rename_i hk
      rw [hother k hk] at hl
      cases hl
  · rw [(hsame k).1, hter k hk, if_pos (by omega)]

end Ledger
end Instance
end Mioco

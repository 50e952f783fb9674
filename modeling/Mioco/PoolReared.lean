import Mioco.PoolSound
/-!
# Children are not left behind

A child waits in `children_to_start` of its parent, then in `spawned` of a thread, then it is given to the scheduler;
`Placed` keeps account of it.  `Tended` is what is true of a thread as long as no coroutine that is being killed has
children that nobody will come to: what a dead parent leaves is killed by `Handler::shutdown`.
-/
namespace Mioco

open Lib (Slab)

/-- A child spawned there under that id is started by `after_resume`, or it is still ahead of `Handler::shutdown`. -/
@[simp] def Ret.tends : Ret → Nat → Bool
  | .resumed _, _ => true
  | .shutdown i last, id => decide (i ≤ id ∧ id < last)
  | .killed _, _ | .stopping, _ | .attached, _ => false

namespace Pooling

/-- Where a coroutine is until the scheduler gets it. -/
inductive Place
  | unborn
  | child (q : Nat)
  | queue (t : Nat)
  | given
deriving DecidableEq, Repr

/-- **Every coroutine is in one place.** -/
structure Placed (p : Pool) (place : Nat → Place) : Prop where
  unborn : ∀ c, place c = .unborn ↔ p.coN ≤ c
  child : ∀ q c, (p.fibers q).children.count c = if place c = .child q then 1 else 0
  queue : ∀ t c, (p.desks t).spawned.count c = if place c = .queue t then 1 else 0
  given : ∀ c, (p.fibers c).handed = if place c = .given then 1 else 0

variable {p p' : Pool} {t i c : Nat} {may : Ret → Nat → Prop} {place : Nat → Place}

namespace Placed

theorem same (h : Placed p place) (hn : p'.coN = p.coN)
    (hf : ∀ x, (p'.fibers x).children = (p.fibers x).children ∧ (p'.fibers x).handed = (p.fibers x).handed)
    (hd : ∀ i, (p'.desks i).spawned = (p.desks i).spawned) : Placed p' place where
  unborn x := by rw [hn, h.unborn]
  child q x := by rw [(hf q).1, h.child]
  queue i x := by rw [hd, h.queue]
  given x := by rw [(hf x).2, h.given]

/-- A thread and a coroutine are edited. -/
theorem edit (h : Placed p place) {d : Desk} {f : Fiber} (hd : d.spawned = (p.desks t).spawned)
    (hk : f.children = (p.fibers c).children) (hg : f.handed = (p.fibers c).handed) :
    Placed ((p.setFiber c f).setDesk t d) place := by
  refine h.same rfl (fun x => ?_) (fun j => ?_)
  · rw [Pool.setDesk_fibers, Pool.fibers_setFiber]
    split
    · rename_i hx
      rw [hx]
      exact ⟨hk, hg⟩
    · exact ⟨rfl, rfl⟩
  · rw [Pool.desks_setDesk]
    split
    · rename_i hj
      rw [hd, hj]
    · rfl

theorem setDesk (h : Placed p place) {d : Desk} (hd : d.spawned = (p.desks t).spawned) :
    Placed (p.setDesk t d) place := by
  refine h.same rfl (fun _ => ⟨rfl, rfl⟩) (fun j => ?_)
  rw [Pool.desks_setDesk]
  split
  · rename_i hj
    rw [hd, hj]
  · rfl

theorem post (h : Placed p place) (l : Nat) : Placed (p.post l c) place := by
  refine h.same rfl (fun _ => ⟨rfl, rfl⟩) (fun j => ?_)
  rw [Pool.desks_post]

/-- The scheduler is given the first of `spawned`. -/
theorem delivers (h : Placed p place) {rest : List Nat} (hs : (p.desks t).spawned = c :: rest) {d : Desk}
    (hd : d.spawned = rest) : ∃ place', Placed ((p.setFiber c { p.fibers c with
      handed := (p.fibers c).handed + 1 }).setDesk t d) place' := by
  have hc : place c = .queue t := by
    have hcount := h.queue t c
    rw [hs, List.count_cons_self] at hcount
    by_contra hne
    rw [if_neg hne] at hcount
    omega
  refine ⟨Function.update place c .given, fun x => ?_, fun q x => ?_, fun j x => ?_, fun x => ?_⟩
  · rw [Function.update_apply]
    split
    · rename_i hx
      have := (h.unborn c).not.1 (by rw [hc]; simp)
      rw [hx]
      simpa using this
    · exact h.unborn x
  · have hkids : (((p.setFiber c { p.fibers c with handed := (p.fibers c).handed + 1 }).setDesk t d).fibers q).children =
        (p.fibers q).children := by
      rw [Pool.setDesk_fibers, Pool.fibers_setFiber]
      split
      · rename_i hq
        rw [hq]
      · rfl
    rw [hkids, h.child, Function.update_apply]
    by_cases hx : x = c
    · rw [if_pos hx, hx, hc, if_neg (by simp), if_neg (by simp)]
    · rw [if_neg hx]
  · have hold := h.queue j x
    rw [Pool.desks_setDesk, Function.update_apply]
    by_cases hj : j = t
    · rw [if_pos hj, hd]
      rw [hj, hs, count_head] at hold
      by_cases hx : x = c
      · rw [if_pos hx, hx, hc, if_pos rfl] at hold
        rw [if_pos hx, if_neg (by simp), hx]
        omega
      · rw [if_neg hx] at hold
        rw [if_neg hx, hj]
        exact hold
    · rw [if_neg hj, Pool.setFiber_desks, hold]
      by_cases hx : x = c
      · rw [if_pos hx, hx, hc, if_neg (by simpa using Ne.symm hj), if_neg (by simp)]
      · rw [if_neg hx]
  · rw [Pool.setDesk_fibers, Pool.fibers_setFiber, Function.update_apply]
    by_cases hx : x = c
    · have hzero := h.given c
      rw [hc, if_neg (by simp)] at hzero
      rw [if_pos hx, if_pos hx, if_pos rfl]
      simp only [hzero]
    · rw [if_neg hx, if_neg hx, h.given]

/-- `start_children`. -/
theorem starts (h : Placed p place) {f : Fiber} {d : Desk} (hk : f.children = [])
    (hg : f.handed = (p.fibers c).handed) (hd : d.spawned = (p.desks t).spawned ++ (p.fibers c).children) :
    ∃ place', Placed ((p.setFiber c f).setDesk t d) place' := by
  have hplace : ∀ x, place x = .child c ∨ place x ≠ .child c := fun x => em _
  refine ⟨fun x => if place x = .child c then .queue t else place x, fun x => ?_, fun q x => ?_, fun j x => ?_,
    fun x => ?_⟩ <;> rcases hplace x with hx | hx
  · have hold := h.unborn x
    rw [hx] at hold
    rw [if_pos hx, Pool.setDesk_coN, Pool.setFiber_coN, ← hold]
    simp
  · rw [if_neg hx]
    exact h.unborn x
  · rw [if_pos hx, if_neg (by simp), Pool.setDesk_fibers, Pool.fibers_setFiber]
    split
    · rw [hk, List.count_nil]
    · rename_i hq
      rw [h.child, hx, if_neg (by simpa using Ne.symm hq)]
  · rw [if_neg hx, Pool.setDesk_fibers, Pool.fibers_setFiber]
    split
    · rename_i hq
      rw [hk, List.count_nil, hq, if_neg hx]
    · exact h.child q x
  · rw [if_pos hx, Pool.desks_setDesk]
    have hold := h.queue j x
    rw [hx, if_neg (by simp)] at hold
    by_cases hj : j = t
    · rw [hj] at hold
      rw [if_pos hj, hd, List.count_append, h.child, if_pos hx, hold, hj, if_pos rfl]
    · rw [if_neg hj, if_neg (by simpa using Ne.symm hj)]
      exact hold
  · rw [if_neg hx, Pool.desks_setDesk]
    split
    · rename_i hj
      rw [hd, List.count_append, h.child, if_neg hx, hj, h.queue, Nat.add_zero]
    · exact h.queue j x
  · rw [if_pos hx, if_neg (by simp), Pool.setDesk_fibers, Pool.fibers_setFiber]
    have hold := h.given x
    rw [hx, if_neg (by simp)] at hold
    split
    · rename_i hxc
      rw [hg, ← hxc, hold]
    · exact hold
  · rw [if_neg hx, Pool.setDesk_fibers, Pool.fibers_setFiber]
    split
    · rename_i hxc
      rw [hg, hxc, h.given]
    · exact h.given x

/-- `spawn_child`. -/
theorem spawn (h : Placed p place) (hfresh : (p.fibers p.coN).children = []) (hc : c < p.coN) {id : Nat} {d : Desk}
    (hd : d.spawned = (p.desks t).spawned) :
    ∃ place', Placed ((({ p with coN := p.coN + 1 }.setFiber c
      { p.fibers c with children := (p.fibers c).children ++ [p.coN] }).setFiber p.coN
        (.new id (some t) (p.fibers p.coN).handed)).setDesk t d) place' := by
  have hnew : place p.coN = .unborn := (h.unborn _).2 (Nat.le_refl _)
  have hcn : c ≠ p.coN := Nat.ne_of_lt hc
  generalize hp' : (({ p with coN := p.coN + 1 }.setFiber c
    { p.fibers c with children := (p.fibers c).children ++ [p.coN] }).setFiber p.coN
      (.new id (some t) (p.fibers p.coN).handed)).setDesk t d = p'
  have hfib : ∀ x, (p'.fibers x).children = (p.fibers x).children ++ (if x = c then [p.coN] else []) ∧
      (p'.fibers x).handed = (p.fibers x).handed := by
    intro x
    rw [← hp', Pool.setDesk_fibers, Pool.fibers_setFiber, Pool.fibers_setFiber]
    by_cases hx : x = p.coN
    · rw [if_pos hx, hx, hfresh, if_neg (Ne.symm hcn)]
      exact ⟨rfl, rfl⟩
    · rw [if_neg hx]
      split
      · rename_i hxc
        rw [hxc]
        exact ⟨rfl, rfl⟩
      · exact ⟨(List.append_nil _).symm, rfl⟩
  have hdesk : ∀ j, (p'.desks j).spawned = (p.desks j).spawned := by
    intro j
    rw [← hp', Pool.desks_setDesk]
    split
    · rename_i hj
      rw [hd, hj]
    · rfl
  have hcoN : p'.coN = p.coN + 1 := by rw [← hp']; rfl
  refine ⟨Function.update place p.coN (.child c), fun x => ?_, fun q x => ?_, fun j x => ?_, fun x => ?_⟩ <;>
    rw [Function.update_apply]
  · have hold := h.unborn x
    rw [hcoN]
    split
    · rename_i hx
      rw [hx]
      simp
    · rename_i hx
      rw [hold]
      omega
  · rw [(hfib q).1, List.count_append, h.child]
    by_cases hx : x = p.coN
    · rw [if_pos hx, hx, hnew, if_neg (by simp), Nat.zero_add]
      by_cases hq : q = c
      · rw [if_pos hq, List.count_singleton_self, if_pos (by rw [hq])]
      · rw [if_neg hq, List.count_nil, if_neg (by simpa using Ne.symm hq)]
    · have hnone : (if q = c then [p.coN] else []).count x = 0 := by
        split
        · rw [List.count_singleton, if_neg (by simpa using Ne.symm hx)]
        · exact List.count_nil
      rw [if_neg hx, hnone, Nat.add_zero]
  · rw [hdesk, h.queue]
    split <;> split <;> simp_all
  · rw [(hfib x).2, h.given]
    split <;> split <;> simp_all

/-- **A step moves a coroutine on, or it leaves it where it is.** -/
theorem step (h : Placed p place) (hs : Sound p) (hst : p.Step may t p') : ∃ place', Placed p' place' := by
  cases hst with
  | moves d hm =>
    refine ⟨place, h.setDesk ?_⟩
    cases hm <;> rfl
  | seizes c d hz =>
    refine ⟨place, h.edit ?_ rfl rfl⟩
    cases hz with
    | stops held spawned ready hst hor =>
      have hidle := ((hs.desk t).closing.idle (by rw [hst]; rfl)).1
      rcases hor with ⟨-, he, -⟩ | ⟨-, he, -⟩ | ⟨-, he, -⟩
      · exact he.symm
      · rw [hidle] at he
        cases he
      · exact he.symm
    | _ => rfl
  | delivers c rest hst hsp => exact h.delivers hsp rfl
  | enters | passes | strays | elsewhere => exact ⟨place, h.setDesk rfl⟩
  | sends c l l' k slab =>
    refine ⟨place, Placed.post (h.edit ?_ ?_ ?_) l'⟩ <;> rfl
  | loses | misplaced | attach | wakes | event | switches | finish | misses =>
    refine ⟨place, h.edit ?_ ?_ ?_⟩ <;> rfl
  | requeues | parks => exact h.starts rfl rfl rfl
  | spawn c id ret slab hst hmay hins =>
    exact h.spawn (hs.fresh _ (Nat.le_refl _)).1.children (hs.lt_coN ((hs.desk t).running_own hst)) rfl

end Placed
/-! ## The other threads -/

/-- A step of thread `t` does not touch what is attached to another. -/
theorem Pool.Step.apart (hs : Sound p) (hst : p.Step may t p') :
    (∀ i, i ≠ t → ∃ m, p'.desks i = { p.desks i with moving := m }) ∧
      ∀ x, (∃ n, p'.fibers x = { p.fibers x with handed := n }) ∨
        ((p.fibers x).handler = some t ∨ (p.fibers x).handler = none) ∧
          ((p'.fibers x).handler = some t ∨ (p'.fibers x).handler = none) := by
  have ht := hs.desk t
  have hself : ∀ x, ∃ n, p.fibers x = { p.fibers x with handed := n } := fun x => ⟨_, rfl⟩
  have hdesk : ∀ (p₁ : Pool) (d : Desk), p₁.desks = p.desks →
      ∀ i, i ≠ t → ∃ m, (p₁.setDesk t d).desks i = { p.desks i with moving := m } := by
    intro p₁ d he i hi
    rw [Pool.setDesk_ne _ _ hi, he]
    exact ⟨_, rfl⟩
  have hedit : ∀ (c : Nat) (f : Fiber), ((p.fibers c).handler = some t ∨ (p.fibers c).handler = none) →
      (f.handler = some t ∨ f.handler = none) → ∀ x, (∃ n, (p.setFiber c f).fibers x = { p.fibers x with handed := n }) ∨
        ((p.fibers x).handler = some t ∨ (p.fibers x).handler = none) ∧
          (((p.setFiber c f).fibers x).handler = some t ∨ ((p.setFiber c f).fibers x).handler = none) := by
    intro c f h1 h2 x
    rw [Pool.fibers_setFiber]
    split
    · rename_i hx
      exact .inr ⟨hx ▸ h1, h2⟩
    · exact .inl (hself x)
  cases hst with
  | moves d | enters | passes | strays | elsewhere => exact ⟨hdesk p _ rfl, fun x => .inl (hself x)⟩
  | seizes c d hz =>
    have hown := ht.seized_own hz
    exact ⟨hdesk _ _ rfl, hedit c _ (.inl hown) (.inl hown)⟩
  | delivers c rest hst hsp =>
    refine ⟨hdesk _ _ rfl, fun x => .inl ?_⟩
    rw [Pool.setDesk_fibers, Pool.fibers_setFiber]
    split
    · rename_i hx
      exact ⟨_, by rw [hx]⟩
    · exact hself x
  | sends c l l' k slab hst hh =>
    refine ⟨fun i hi => ?_, hedit c _ (.inl hh) (.inr rfl)⟩
    rw [Pool.desks_post, Pool.setDesk_ne _ _ hi]
    exact ⟨_, rfl⟩
  | loses c l k slab hst hh | misplaced c l k hst hh =>
    exact ⟨hdesk _ _ rfl, hedit c _ (.inl hh) (.inr rfl)⟩
  | attach c id slab rest hst hm =>
    have hnone := (hs.moving t c (by rw [hm]; exact List.mem_cons_self)).1.handler
    exact ⟨hdesk _ _ rfl, hedit c _ (.inr hnone) (.inl rfl)⟩
  | event c id hst hg =>
    have hown := (ht.stored.stored id c hg).1
    exact ⟨hdesk _ _ rfl, hedit c _ (.inl hown) (.inl hown)⟩
  | wakes c _ hst | requeues c _ hst | parks c _ hst | switches c _ _ hst | finish c _ _ hst | misses c _ hst =>
    have hown := ht.handled.hand (c := c) (by rw [hst]; rfl)
    exact ⟨hdesk _ _ rfl, hedit c _ (.inl hown) (.inl hown)⟩
  | spawn c id ret slab hst =>
    have hown := ht.running_own hst
    have hnone := (hs.fresh p.coN (Nat.le_refl _)).1.handler
    refine ⟨hdesk _ _ rfl, fun x => ?_⟩
    rw [Pool.setDesk_fibers, Pool.fibers_setFiber, Pool.fibers_setFiber]
    split
    · rename_i hx
      exact .inr ⟨.inr (hx ▸ hnone), .inl rfl⟩
    · split
      · rename_i hx
        exact .inr ⟨.inl (hx ▸ hown), .inl hown⟩
      · exact .inl (hself x)

/-! ## Orphans -/

/-- **The children on thread `t`** wait for `after_resume` of their parent; of those that do not, each is killed while
the thread shuts down. -/
structure Tended (p : Pool) (t : Nat) : Prop where
  brood : ∀ q, (p.fibers q).handler = some t → (p.fibers q).children ≠ [] →
    (p.desks t).stage.resuming = some q ∨ (p.desks t).stage = .panicked false ∨ (p.desks t).isShuttingDown = true
  orphan : (p.desks t).isShuttingDown = true → ∀ q, (p.fibers q).handler = some t → ∀ c ∈ (p.fibers q).children,
    (p.fibers c).handler = some t ∧ ((p.fibers c).killed = true ∨ (p.fibers c).state ≠ .finished)
  wave : (p.desks t).isShuttingDown = true → (p.desks t).stage ≠ .panicked false →
    ∀ id c, (p.desks t).coroutines.get id = some c →
      (p.desks t).stage.runs = some c ∨ (p.desks t).stage.attaching = some c ∨
        ∃ i last, (p.desks t).stage.waving = some (i, last) ∧ i ≤ id ∧ id < last

namespace Tended

theorem frame (h : Tended p i) {m : List Nat} (hd : p'.desks i = { p.desks i with moving := m })
    (hf : ∀ x, (p.fibers x).handler = some i ∨ (p'.fibers x).handler = some i →
      ∃ n, p'.fibers x = { p.fibers x with handed := n }) : Tended p' i where
  brood q hq hk := by
    obtain ⟨n, hn⟩ := hf q (.inr hq)
    rw [hn] at hq hk
    rw [hd]
    exact h.brood q hq hk
  orphan hs q hq c hc := by
    obtain ⟨n, hn⟩ := hf q (.inr hq)
    rw [hn] at hq hc
    rw [hd] at hs
    have hold := h.orphan hs q hq c hc
    obtain ⟨n', hn'⟩ := hf c (.inl hold.1)
    rw [hn']
    exact hold
  wave hs hp id c hg := by
    rw [hd] at hs hp hg ⊢
    exact h.wave hs hp id c hg

/-- The children of a coroutine stay where they are, or they leave together. -/
theorem keep (h : Tended p t) (hp : (p.desks t).stage = .panicked false → (p'.desks t).stage = .panicked false)
    (hs : (p'.desks t).isShuttingDown = (p.desks t).isShuttingDown)
    (hf : ∀ x, (p'.fibers x).handler = some t → (p.fibers x).handler = some t ∧
      ((p'.fibers x).children = (p.fibers x).children ∧ ((p.desks t).stage.resuming = some x →
        (p'.desks t).stage.resuming = some x ∨ (p'.desks t).stage = .panicked false) ∨ (p'.fibers x).children = []))
    (hc : (p.desks t).isShuttingDown = true → ∀ x, (p.fibers x).handler = some t → (p'.fibers x).handler = some t ∧
      ((p.fibers x).killed = true → (p'.fibers x).killed = true) ∧
        ((p'.fibers x).state = .finished → (p.fibers x).state = .finished ∨ (p'.fibers x).killed = true))
    (hwave : (p.desks t).isShuttingDown = true → (p'.desks t).stage ≠ .panicked false →
      ∀ id x, (p'.desks t).coroutines.get id = some x → (p.desks t).coroutines.get id = some x ∧
        ((p.desks t).stage.runs = some x → (p'.desks t).stage.runs = some x) ∧
        ((p.desks t).stage.attaching = some x →
          (p'.desks t).stage.attaching = some x ∨ (p'.desks t).stage.runs = some x))
    (hwav : (p.desks t).isShuttingDown = true → (p'.desks t).stage ≠ .panicked false →
      (p'.desks t).stage.waving = (p.desks t).stage.waving) : Tended p' t where
  brood q hq hk := by
    obtain ⟨hq', ⟨he, hres⟩ | he⟩ := hf q hq
    · rw [he] at hk
      rw [hs]
      rcases h.brood q hq' hk with hr | hr | hr
      · exact (hres hr).imp_right Or.inl
      · exact .inr (.inl (hp hr))
      · exact .inr (.inr hr)
    · exact (hk he).elim
  orphan hsd q hq c hin := by
    rw [hs] at hsd
    obtain ⟨hq', ⟨he, -⟩ | he⟩ := hf q hq
    · rw [he] at hin
      obtain ⟨h1, h2⟩ := h.orphan hsd q hq' c hin
      obtain ⟨e1, e2, e3⟩ := hc hsd c h1
      refine ⟨e1, ?_⟩
      by_cases hfin : (p'.fibers c).state = .finished
      · rcases e3 hfin with hold | hk
        · exact .inl (e2 (h2.resolve_right (fun hl => hl hold)))
        · exact .inl hk
      · exact .inr hfin
    · rw [he] at hin
      cases hin
  wave hsd hp' id c hg := by
    rw [hs] at hsd
    obtain ⟨hg', hruns, hatt⟩ := hwave hsd hp' id c hg
    rw [hwav hsd hp']
    rcases h.wave hsd (fun he => hp' (hp he)) id c hg' with hr | hr | hr
    · exact .inl (hruns hr)
    · exact (hatt hr).elim (fun ha => .inr (.inl ha)) Or.inl
    · exact .inr (.inr hr)

/-- The thread is not shutting down. -/
theorem unshut (h : Tended p t) (hsd : (p.desks t).isShuttingDown = false) (hp : (p.desks t).stage ≠ .panicked false)
    (hs : (p'.desks t).isShuttingDown = (p.desks t).isShuttingDown)
    (hf : ∀ x, (p'.fibers x).handler = some t → (p.fibers x).handler = some t ∧
      ((p'.fibers x).children = (p.fibers x).children ∧ ((p.desks t).stage.resuming = some x →
        (p'.desks t).stage.resuming = some x ∨ (p'.desks t).stage = .panicked false) ∨ (p'.fibers x).children = [])) :
    Tended p' t := by
  have hno : (p.desks t).isShuttingDown ≠ true := by rw [hsd]; simp
  exact h.keep (fun he => (hp he).elim) hs hf (fun hs' => (hno hs').elim) (fun hs' => (hno hs').elim)
    (fun hs' => (hno hs').elim)

theorem goes (h : Tended p t) (hd : DeskOk p t) {st : Stage} (hg : (p.desks t).Goes st) :
    Tended (p.setStage t st) t := by
  have hself : (p.setStage t st).desks t = { p.desks t with stage := st } := Pool.setDesk_self _ _ _
  have hres : ∀ x, (p.desks t).stage.resuming = some x → st.resuming = some x ∨ st = .panicked false := by
    intro x hx
    rcases hg.hands with ⟨-, hr, -⟩ | ⟨-, -, -, hp | ⟨c, ret, hst, hret⟩⟩
    · exact .inl (hr.trans hx)
    · exact .inr hp
    · rw [hst] at hx
      cases ret with
      | resumed k => cases hret
      | _ => cases hx
  -- unless the wave is over
  have hkeep : (st ≠ .panicked false → (∀ x, (p.desks t).stage.runs = some x → st.runs = some x) ∧
      (p.desks t).stage.attaching = none ∧ st.waving = (p.desks t).stage.waving) → Tended (p.setStage t st) t := by
    intro hstage
    refine h.keep (fun hp => ?_) (by rw [hself]) (fun x hx => ⟨hx, .inl ⟨rfl, ?_⟩⟩)
      (fun _ x hx => ⟨hx, fun hk => hk, fun hfin => .inl hfin⟩) (fun _ hp id x hg' => ?_) (fun _ hp => ?_)
    all_goals rw [hself] at *
    · by_contra hne
      exact (hg.awake hne).1 hp
    · exact hres x
    · obtain ⟨hr, ha, -⟩ := hstage hp
      refine ⟨hg', hr x, fun hx => ?_⟩
      rw [ha] at hx
      cases hx
    · exact (hstage hp).2.2
  cases hg with
  | panic => exact hkeep (fun hp => (hp rfl).elim)
  | waved i last hst hnone =>
    obtain ⟨hsd, hfirst⟩ := hd.closing.waving i last (by rw [hst]; rfl)
    refine ⟨fun q hq hk => .inr (.inr ?_), fun _ q hq => ?_, fun _ _ id c hget => ?_⟩ <;> rw [hself] at *
    · exact hsd
    · exact h.orphan hsd q hq
    · rcases h.wave hsd (by simp [hst]) id c hget with hr | hr | ⟨j, last', hw, hij, hlt⟩ <;> rw [hst] at *
      · cases hr
      · cases hr
      · cases hw
        rw [Slab.nextFrom_none hfirst hnone id hij hlt] at hget
        cases hget
  | left c ret hst =>
    refine hkeep (fun _ => ?_)
    rw [hst]
    cases ret with
    | resumed k => exact ⟨fun _ hx => (by cases hx), rfl, rfl⟩
    | _ => exact ⟨fun _ hx => (by cases hx), rfl, rfl⟩
  | start hst | tick hst | spawnedCalled hst | called _ hst | noSpawned hst | noReady hst | delivered hst
  | spurious _ _ hst | stop hst | stopped hst | settled _ _ hst | freed _ _ hst =>
    refine hkeep (fun _ => ?_)
    rw [hst]
    exact ⟨fun _ hx => (by cases hx), rfl, rfl⟩

theorem moves (h : Tended p t) (hd : DeskOk p t) {d : Desk} (hm : (p.desks t).Moves d) : Tended (p.setDesk t d) t := by
  have hself : (p.setDesk t d).desks t = d := Pool.setDesk_self _ _ _
  have hcalm : (p.desks t).isShuttingDown = false → (p.desks t).stage ≠ .panicked false →
      d.isShuttingDown = (p.desks t).isShuttingDown → (p.desks t).stage.resuming = none → Tended (p.setDesk t d) t := by
    intro hsd hp hs hr
    refine h.unshut hsd hp (by rw [hself, hs]) (fun x hx => ⟨hx, .inl ⟨rfl, fun hx' => ?_⟩⟩)
    rw [hr] at hx'
    cases hx'
  cases hm with
  | goes st hg => exact h.goes hd hg
  | readies c b rest hst hready =>
    have hp : (p.desks t).stage ≠ .panicked false := by simp [hst]
    exact hcalm (hd.closing.unshut_of_ready hp (.inl hready)) hp rfl (by rw [hst]; rfl)
  | gives c hst =>
    rcases hst with hst | ⟨hatt, hsd⟩
    · have hp : (p.desks t).stage ≠ .panicked false := by simp [hst]
      exact hcalm (hd.closing.unshut (by rw [hst]; rfl) hp) hp rfl (by rw [hst]; rfl)
    · rcases Stage.eq_of_attaching hatt with hst | hst
      all_goals exact hcalm hsd (by simp [hst]) rfl (by rw [hst]; rfl)
  | takes c i k st hst hi hto =>
    have hp : (p.desks t).stage ≠ .panicked false := by simp [hst]
    exact hcalm (hd.closing.unshut (by rw [hst]; rfl) hp) hp rfl (by rw [hst]; rfl)
  | shutdown hst =>
    have hbare : (p.desks t).isShuttingDown = true ∨ ∀ q, (p.fibers q).handler = some t → (p.fibers q).children = [] := by
      refine or_iff_not_imp_left.2 (fun hsd q hq => ?_)
      by_contra hk
      rcases h.brood q hq hk with hr | hr | hr
      · rw [hst] at hr
        cases hr
      · rw [hst] at hr
        cases hr
      · exact hsd hr
    refine ⟨fun q hq hk => .inr (.inr ?_), fun _ q hq c hin => ?_, fun _ _ id c hg => .inr (.inr ?_)⟩
    all_goals rw [hself] at *
    · rcases hbare with hsd | hbare
      · exact h.orphan hsd q hq c hin
      · rw [Pool.setDesk_fibers, hbare q hq] at hin
        cases hin
    · obtain ⟨hle, hlt⟩ := Slab.get_lt hg
      exact ⟨_, _, rfl, hle, hlt⟩

theorem seizes (h : Tended p t) (hd : DeskOk p t) {d : Desk} (hz : (p.desks t).Seizes c d) :
    Tended ((p.kill c).setDesk t d) t := by
  have hself : ((p.kill c).setDesk t d).desks t = d := Pool.setDesk_self _ _ _
  obtain ⟨hres, hruns, hp⟩ := hz.calm
  obtain ⟨hsc, hsd, -⟩ := hz.same
  have hfib := Pool.fibers_kill p c
  have hkilled : ∀ x, (p.fibers x).killed = true → ((p.kill c).fibers x).killed = true := by
    intro x hx
    rw [Pool.kill, Pool.fibers_setFiber]
    split
    · rfl
    · exact hx
  -- unless it is the next in the wave
  have hkeep : ((p.desks t).isShuttingDown = true → (∀ x, (p.desks t).stage.attaching = some x → d.stage.runs = some x) ∧
      d.stage.waving = (p.desks t).stage.waving) → Tended ((p.kill c).setDesk t d) t := by
    intro hstage
    refine h.keep (fun he => (hp he).elim) ?_ (fun x hx => ⟨?_, .inl ⟨?_, fun hx' => ?_⟩⟩)
      (fun _ x hx => ⟨?_, hkilled x, fun hfin => .inl ?_⟩) (fun hs _ id x hg => ⟨?_, fun hx => ?_, fun hx => .inr ?_⟩)
      (fun hs _ => ?_)
    all_goals try rw [Pool.setDesk_fibers] at *
    · rw [hself, hsd]
    · exact (hfib x).1 ▸ hx
    · exact (hfib x).2.2.2
    · rw [hres] at hx'
      cases hx'
    · exact (hfib x).1.trans hx
    · exact (hfib x).2.2.1 ▸ hfin
    · rwa [hself, hsc] at hg
    · rw [hruns] at hx
      cases hx
    · rw [hself]
      exact (hstage hs).1 x hx
    · rw [hself]
      exact (hstage hs).2
  cases hz with
  | drops i k hst =>
    have hs := hd.closing.unshut (by rw [hst]; rfl) hp
    refine hkeep (fun hs' => ?_)
    rw [hs] at hs'
    cases hs'
  | stops _ _ _ hst =>
    refine hkeep (fun _ => ?_)
    rw [hst]
    exact ⟨fun _ hx => (by cases hx), rfl⟩
  | arrives hatt =>
    refine hkeep (fun _ => ⟨fun x hx => ?_, ?_⟩)
    · rw [hatt] at hx
      cases hx
      rfl
    · rcases Stage.eq_of_attaching hatt with hst | hst <;> rw [hst] <;> rfl
  | wave i last id hst hnext hget =>
    obtain ⟨hs, hfirst⟩ := hd.closing.waving i last (by rw [hst]; rfl)
    obtain ⟨-, -, -, hbefore⟩ := Slab.nextFrom_some hfirst hnext
    refine ⟨fun q hq hk => .inr (.inr ?_), fun _ q hq c' hin => ?_, fun _ _ id' c' hg => ?_⟩
    · rw [hself]
      exact hs
    · rw [Pool.setDesk_fibers] at *
      obtain ⟨h1, h2⟩ := h.orphan hs q ((hfib q).1 ▸ hq) c' ((hfib q).2.2.2 ▸ hin)
      rw [(hfib c').1, (hfib c').2.2.1]
      exact ⟨h1, h2.imp_left (hkilled c')⟩
    · rw [hself] at hg ⊢
      rcases h.wave hs hp id' c' hg with hr | hr | ⟨j, last', hw, hij, hlt⟩ <;> rw [hst] at *
      · cases hr
      · cases hr
      · cases hw
        rcases Nat.lt_trichotomy id' id with hlt' | rfl | hgt
        · rw [hbefore id' hij hlt'] at hg
          cases hg
        · rw [hget] at hg
          cases hg
          exact .inl rfl
        · exact .inr (.inr ⟨id + 1, last, rfl, hgt, hlt⟩)

/-- A thread and a coroutine of it are edited. -/
theorem edit (h : Tended p t) {d : Desk} {f : Fiber} (hp : (p.desks t).stage ≠ .panicked false)
    (hown : (p.fibers c).handler = some t) (hs : d.isShuttingDown = (p.desks t).isShuttingDown)
    (hf : f.children = (p.fibers c).children ∨ f.children = [])
    (hres : ∀ x, (p.desks t).stage.resuming = some x → d.stage.resuming = some x ∨ d.stage = .panicked false ∨
      x = c ∧ f.children = [])
    (hshut : (p.desks t).isShuttingDown = true → f.handler = some t ∧ f.killed = (p.fibers c).killed ∧
      (f.state = .finished → (p.fibers c).state = .finished ∨ f.killed = true) ∧
        (∀ id x, d.coroutines.get id = some x → (p.desks t).coroutines.get id = some x ∧
          ((p.desks t).stage.runs = some x → d.stage.runs = some x) ∧
          ((p.desks t).stage.attaching = some x → d.stage.attaching = some x ∨ d.stage.runs = some x)) ∧
        d.stage.waving = (p.desks t).stage.waving) : Tended ((p.setFiber c f).setDesk t d) t := by
  have hself : ((p.setFiber c f).setDesk t d).desks t = d := Pool.setDesk_self _ _ _
  have hfib : ∀ x, ((p.setFiber c f).setDesk t d).fibers x = if x = c then f else p.fibers x :=
    fun x => Pool.fibers_setFiber p c f x
  refine h.keep (fun he => (hp he).elim) (by rw [hself, hs]) (fun x hx => ?_) (fun hsd x hx => ?_)
    (fun hsd _ id x hg => ?_) (fun hsd _ => ?_)
  · rw [hfib] at hx ⊢
    rw [hself]
    split at hx
    · rename_i hxc
      rw [if_pos hxc, hxc]
      refine ⟨hown, ?_⟩
      by_cases hk : f.children = []
      · exact .inr hk
      · refine .inl ⟨hf.resolve_right hk, fun hx' => ?_⟩
        rcases hres c hx' with hr | hr | ⟨-, hr⟩
        · exact .inl hr
        · exact .inr hr
        · exact (hk hr).elim
    · rename_i hxc
      rw [if_neg hxc]
      refine ⟨hx, .inl ⟨rfl, fun hx' => ?_⟩⟩
      rcases hres x hx' with hr | hr | ⟨hr, -⟩
      · exact .inl hr
      · exact .inr hr
      · exact (hxc hr).elim
  · obtain ⟨h1, h2, h3, -⟩ := hshut hsd
    rw [hfib]
    split
    · rename_i hxc
      rw [hxc, h2]
      exact ⟨h1, fun hk => hk, fun hfin => h2 ▸ h3 hfin⟩
    · exact ⟨hx, fun hk => hk, fun hfin => .inl hfin⟩
  · rw [hself] at hg ⊢
    exact (hshut hsd).2.2.2.1 id x hg
  · rw [hself]
    exact (hshut hsd).2.2.2.2

/-- A thread is edited alone. -/
theorem stay (h : Tended p t) {d : Desk} (hp : (p.desks t).stage ≠ .panicked false)
    (hs : d.isShuttingDown = (p.desks t).isShuttingDown)
    (hres : ∀ x, (p.desks t).stage.resuming = some x → d.stage.resuming = some x)
    (hshut : (p.desks t).isShuttingDown = true →
      (∀ id x, d.coroutines.get id = some x → (p.desks t).coroutines.get id = some x ∧
        ((p.desks t).stage.runs = some x → d.stage.runs = some x) ∧
        ((p.desks t).stage.attaching = some x → d.stage.attaching = some x ∨ d.stage.runs = some x)) ∧
      d.stage.waving = (p.desks t).stage.waving) : Tended (p.setDesk t d) t := by
  have hself : (p.setDesk t d).desks t = d := Pool.setDesk_self _ _ _
  refine h.keep (fun he => (hp he).elim) (by rw [hself, hs]) (fun x hx => ⟨hx, .inl ⟨rfl, fun hx' => .inl ?_⟩⟩)
    (fun _ x hx => ⟨hx, fun hk => hk, fun hfin => .inl hfin⟩) (fun hsd _ id x hg => ?_) (fun hsd _ => ?_)
  · rw [hself]
    exact hres x hx'
  · rw [hself] at hg ⊢
    exact (hshut hsd).1 id x hg
  · rw [hself]
    exact (hshut hsd).2

/-- **`reattach_to`**: what arrives is loose, and it is not in the slab for long. -/
theorem attach (h : Tended p t) (hst : (p.desks t).stage = .poll) (hc : (p.fibers c).Loose) {id : Nat}
    {slab : Slab startingId Nat} {m : List Nat} (hins : (grown (p.desks t).coroutines).insertAt id c = some slab) :
    Tended ((p.setFiber c { p.fibers c with id := id, handler := some t }).setDesk t
      { p.desks t with moving := m, coroutines := slab, stage := .settling c .attached }) t := by
  have hget := (Slab.insertAt_some hins).2.1
  generalize hd : { p.desks t with moving := m, coroutines := slab, stage := .settling c .attached } = d
  generalize hf : { p.fibers c with id := id, handler := some t } = f
  have hself : ((p.setFiber c f).setDesk t d).desks t = d := Pool.setDesk_self _ _ _
  have hfib : ∀ x, ((p.setFiber c f).setDesk t d).fibers x = if x = c then f else p.fibers x :=
    fun x => Pool.fibers_setFiber p c f x
  have hkids : f.children = [] := by rw [← hf]; exact hc.children
  have hsd : d.isShuttingDown = (p.desks t).isShuttingDown := by rw [← hd]
  refine ⟨fun q hq hk => ?_, fun hs q hq x hin => ?_, fun hs hp j x hg => ?_⟩ <;> rw [hself] at *
  · rw [hfib] at hq hk
    split at hq
    · rename_i hqc
      rw [if_pos hqc] at hk
      exact (hk hkids).elim
    · rename_i hqc
      rw [if_neg hqc] at hk
      rw [hsd]
      rcases h.brood q hq hk with hr | hr | hr
      · rw [hst] at hr
        cases hr
      · rw [hst] at hr
        cases hr
      · exact .inr (.inr hr)
  · rw [hsd] at hs
    rw [hfib] at hq hin ⊢
    split at hq
    · rename_i hqc
      rw [if_pos hqc, hkids] at hin
      cases hin
    · rename_i hqc
      rw [if_neg hqc] at hin
      have hold := h.orphan hs q hq x hin
      have hx : x ≠ c := by
        rintro rfl
        rw [hc.handler] at hold
        cases hold.1
      rw [if_neg hx]
      exact hold
  · rw [hsd] at hs
    rw [← hd] at hg ⊢
    rw [hget] at hg
    split at hg
    · cases hg
      exact .inr (.inl rfl)
    · rw [get_grown] at hg
      rcases h.wave hs (by simp [hst]) j x hg with hr | hr | ⟨i, last, hr, -⟩
      all_goals
        rw [hst] at hr
        cases hr

/-- **`spawn_child`**, where the child is not left to nobody. -/
theorem spawn (h : Tended p t) (hd : DeskOk p t) {ret : Ret} {id : Nat} {slab : Slab startingId Nat}
    (hst : (p.desks t).stage = .running c ret) (htend : ret.tends id = true) (hfresh : (p.fibers p.coN).Loose)
    (hins : (grown (p.desks t).coroutines).insertAt id p.coN = some slab) :
    Tended ((({ p with coN := p.coN + 1 }.setFiber c
      { p.fibers c with children := (p.fibers c).children ++ [p.coN] }).setFiber p.coN
        (.new id (some t) (p.fibers p.coN).handed)).setDesk t { p.desks t with coroutines := slab }) t := by
  have hget := (Slab.insertAt_some hins).2.1
  have hown := hd.running_own hst
  have hp : (p.desks t).stage ≠ .panicked false := by simp [hst]
  have hcn : c ≠ p.coN := by
    rintro rfl
    rw [hfresh.handler] at hown
    cases hown
  have hresumed : (∃ k, ret = .resumed k) ∨ ∃ i last, ret = .shutdown i last ∧ i ≤ id ∧ id < last := by
    cases ret with
    | resumed k => exact .inl ⟨k, rfl⟩
    | shutdown i last => exact .inr ⟨i, last, rfl, of_decide_eq_true htend⟩
    | _ => cases htend
  have hunshut : ∀ k, ret = .resumed k → (p.desks t).isShuttingDown = false := by
    rintro k rfl
    exact hd.closing.unshut (by rw [hst]; rfl) hp
  generalize hp' : (({ p with coN := p.coN + 1 }.setFiber c
      { p.fibers c with children := (p.fibers c).children ++ [p.coN] }).setFiber p.coN
        (.new id (some t) (p.fibers p.coN).handed)).setDesk t { p.desks t with coroutines := slab } = p'
  have hself : p'.desks t = { p.desks t with coroutines := slab } := by rw [← hp', Pool.setDesk_self]
  have hnew : p'.fibers p.coN = .new id (some t) (p.fibers p.coN).handed := by
    rw [← hp', Pool.setDesk_fibers, Pool.setFiber_self]
  have hparent : p'.fibers c = { p.fibers c with children := (p.fibers c).children ++ [p.coN] } := by
    rw [← hp', Pool.setDesk_fibers, Pool.setFiber_ne _ _ hcn, Pool.setFiber_self]
  have hother : ∀ x, x ≠ p.coN → x ≠ c → p'.fibers x = p.fibers x := by
    intro x hx hxc
    rw [← hp', Pool.setDesk_fibers, Pool.setFiber_ne _ _ hx, Pool.setFiber_ne _ _ hxc]
  have hold : ∀ x, x ≠ p.coN → (p'.fibers x).handler = (p.fibers x).handler ∧ (p'.fibers x).state = (p.fibers x).state ∧
      (p'.fibers x).killed = (p.fibers x).killed := by
    intro x hx
    by_cases hxc : x = c
    · rw [hxc, hparent]
      exact ⟨rfl, rfl, rfl⟩
    · rw [hother x hx hxc]
      exact ⟨rfl, rfl, rfl⟩
  refine ⟨fun q hq hk => ?_, fun hs q hq x hin => ?_, fun hs _ j x hg => ?_⟩
  · rw [hself]
    by_cases hqc : q = c
    · rcases hresumed with ⟨k, rfl⟩ | ⟨i, last, rfl, -⟩
      · exact .inl (by rw [hqc, hst]; rfl)
      · exact .inr (.inr (hd.closing.waving i last (by rw [hst]; rfl)).1)
    · have hqn : q ≠ p.coN := by
        rintro rfl
        rw [hnew] at hk
        exact hk rfl
      rw [hother q hqn hqc] at hq hk
      exact h.brood q hq hk
  · rw [hself] at hs
    have hkid : (p.fibers x).handler = some t ∧ ((p.fibers x).killed = true ∨ (p.fibers x).state ≠ .finished) →
        (p'.fibers x).handler = some t ∧ ((p'.fibers x).killed = true ∨ (p'.fibers x).state ≠ .finished) := by
      intro hx
      have hxn : x ≠ p.coN := by
        rintro rfl
        rw [hfresh.handler] at hx
        cases hx.1
      obtain ⟨e1, e2, e3⟩ := hold x hxn
      rwa [e1, e2, e3]
    by_cases hqc : q = c
    · rw [hqc, hparent, List.mem_append] at hin
      rcases hin with hin | hin
      · exact hkid (h.orphan hs c hown x hin)
      · rw [List.mem_singleton.1 hin, hnew]
        exact ⟨rfl, .inr (by simp [Fiber.new])⟩
    · have hqn : q ≠ p.coN := by
        rintro rfl
        rw [hnew] at hin
        cases hin
      rw [hother q hqn hqc] at hq hin
      exact hkid (h.orphan hs q hq x hin)
  · rw [hself] at hs hg ⊢
    rw [hget] at hg
    split at hg
    · rename_i hj
      rcases hresumed with ⟨k, hk⟩ | ⟨i, last, rfl, hle, hlt⟩
      · rw [hunshut k hk] at hs
        cases hs
      · exact .inr (.inr ⟨i, last, by rw [hst]; rfl, by omega, by omega⟩)
    · rw [get_grown] at hg
      exact h.wave hs hp j x hg

/-- **Its own step.** -/
theorem step_own (h : Tended p t) (hs : Sound p) (hst : p.Step (fun ret id => ret.tends id = true) t p') :
    Tended p' t := by
  have hd := hs.desk t
  have hno : ∀ {st : Stage} {P : Prop}, (p.desks t).stage = st → st.shuts = false → st ≠ .panicked false →
      (p.desks t).isShuttingDown = true → P := by
    intro st P he hshuts hp hsd
    have := hd.closing.unshut (by rw [he]; exact hshuts) (by rw [he]; exact hp)
    rw [this] at hsd
    cases hsd
  cases hst with
  | moves d hm => exact h.moves hd hm
  | seizes c d hz => exact h.seizes hd hz
  | delivers c rest hst hsp =>
    have hp : (p.desks t).stage ≠ .panicked false := by simp [hst]
    have hown := hd.handled.own c (by
      rw [Pool.waiting, Desk.queued, hsp, List.count_cons_self]
      omega)
    refine h.edit hp hown rfl (.inl rfl) (fun x hx => ?_) (fun hsd => ?_)
    · rw [hst] at hx
      cases hx
    · rw [hd.closing.unshut_of_ready hp (.inr hsp)] at hsd
      cases hsd
  | enters c ret hst =>
    refine h.stay (by simp [hst]) rfl (fun x hx => ?_) (fun _ => ⟨fun _ x hg => ⟨hg, fun hx => ?_, fun hx => ?_⟩, ?_⟩)
    all_goals rw [hst] at *
    · cases ret <;> exact hx
    · exact hx
    · cases hx
    · cases ret <;> rfl
  | passes c ret hst hf =>
    refine h.stay (by simp [hst]) rfl (fun x hx => ?_) (fun _ => ⟨fun id x hg => ⟨hg, fun hx => ?_, fun hx => ?_⟩, ?_⟩)
    · rw [hst] at hx
      cases ret <;> exact hx
    · rw [hst] at hx
      cases hx
      exact ((hd.stored.stored id _ hg).2.2 hf).elim
    · rw [hst] at hx
      cases hx
    · rw [hst]
      cases ret <;> rfl
  | strays c ret hst _ hh => exact (hh (hd.handled.hand (by rw [hst]; rfl))).elim
  | elsewhere c l k hst hh => exact (hh (hd.handled.hand (by rw [hst]; rfl))).elim
  | sends c l l' k slab hst hh hrem =>
    refine Tended.frame (m := _) (p := (p.detach c).setDesk t { p.desks t with coroutines := slab, stage := .call k })
      (h.edit (by simp [hst]) hh rfl (.inl rfl) (fun x hx => ?_) (hno hst rfl (by simp))) (Pool.desks_post _ c l' t)
      (fun x _ => ⟨_, rfl⟩)
    rw [hst] at hx
    cases hx
  | loses c l k slab hst hh hrem =>
    refine h.edit (by simp [hst]) hh rfl (.inl rfl) (fun x hx => ?_) (hno hst rfl (by simp))
    rw [hst] at hx
    cases hx
  | misplaced c l k hst hh hrem =>
    have hfits := hd.fits
    rw [hst] at hfits
    have := hd.stored.placed c hh (by rw [hfits.1]; simp)
    rw [Slab.remove_none hrem] at this
    cases this
  | attach c id slab rest hst hm hins =>
    exact h.attach hst (hs.moving t c (by rw [hm]; exact List.mem_cons_self)).1 hins
  | wakes c next hst hl =>
    have hown := hd.handled.hand (c := c) (by rw [hst]; rfl)
    refine h.edit (by simp [hst]) hown rfl (.inl rfl) (fun x hx => .inl ?_) (fun hsd => ⟨hown, rfl, fun hfin => ?_,
      fun _ x hg => ⟨hg, fun hx => ?_, fun hx => .inl ?_⟩, ?_⟩)
    · rw [hst] at hx
      cases next <;> exact hx
    · cases hfin
    · rw [hst] at hx
      cases hx
    · rw [hst] at hx
      cases next <;> exact hx
    · rw [hst]
      rfl
  | event c id hst hg hb =>
    refine h.edit (by simp [hst]) (hd.stored.stored id c hg).1 rfl (.inl rfl) (fun x hx => ?_) (fun hsd => ?_)
    · rw [hst] at hx
      cases hx
    · rcases h.wave hsd (by simp [hst]) id c hg with hr | hr | ⟨_, _, hr, -⟩
      all_goals
        rw [hst] at hr
        cases hr
  | requeues c k hst | parks c k hst =>
    have hown := hd.handled.hand (c := c) (by rw [hst]; rfl)
    refine h.edit (by simp [hst]) hown rfl (.inr rfl) (fun x hx => .inr (.inr ?_)) (hno hst rfl (by simp))
    rw [hst] at hx
    cases hx
    exact ⟨rfl, rfl⟩
  | switches c ret state hst hret =>
    cases ret with
    | resumed k =>
      refine h.edit (by simp [hst]) (hd.running_own hst) rfl (.inl rfl) (fun x hx => .inl ?_) (hno hst rfl (by simp))
      rw [hst] at hx
      exact hx
    | _ => cases hret
  | spawn c id ret slab hst hmay hins => exact h.spawn hd hst hmay (hs.fresh _ (Nat.le_refl _)).1 hins
  | finish c ret slab hst hrem =>
    have hown := hd.running_own hst
    have hfits := hd.fits
    rw [hst] at hfits
    refine h.edit (by simp [hst]) hown rfl (.inl rfl) (fun x hx => .inl ?_) (fun hsd => ⟨hown, rfl, fun _ => .inr ?_,
      fun id x hg => ?_, ?_⟩)
    · rw [hst] at hx
      cases ret <;> exact hx
    · have hkills : ret.kills = true := by
        cases ret with
        | resumed k => exact hno hst rfl (by simp) hsd
        | _ => rfl
      exact hfits.1.trans hkills
    · rw [(Slab.remove_some hrem).2.1] at hg
      split at hg
      · cases hg
      · rename_i hid
        refine ⟨hg, fun hx => ?_, fun hx => ?_⟩
        · rw [hst] at hx
          cases hx
          exact (hid (hd.stored.stored id _ hg).2.1.symm).elim
        · rw [hst] at hx
          cases hx
    · rw [hst]
      cases ret <;> rfl
  | misses c ret hst hrem =>
    have hfits := hd.fits
    rw [hst] at hfits
    have := hd.stored.placed c (hd.running_own hst) hfits.2
    rw [Slab.remove_none hrem] at this
    cases this

end Tended

/-- What every step keeps as long as the children of a coroutine that is being killed are tended. -/
structure Reared (p : Pool) : Prop where
  placed : ∃ place, Placed p place
  tended : ∀ t, Tended p t
  loose : p.Settled

theorem Reared.step (h : Reared p) (hs : Sound p) (hst : p.Step (fun ret id => ret.tends id = true) t p') :
    Reared p' := by
  obtain ⟨place, hplace⟩ := h.placed
  obtain ⟨hdesks, hfibers⟩ := hst.apart hs
  refine ⟨hplace.step hs hst, fun i => ?_, hs.settled h.loose hst⟩
  by_cases hi : i = t
  · rw [hi]
    exact (h.tended t).step_own hs hst
  · obtain ⟨m, hm⟩ := hdesks i hi
    refine (h.tended i).frame hm (fun x hx => ?_)
    have hit : ∀ {o : Option Nat}, (o = some t ∨ o = none) → o ≠ some i := by
      rintro o (rfl | rfl) he <;> cases he
      exact hi rfl
    rcases hfibers x with hsame | ⟨h1, h2⟩
    · exact hsame
    · rcases hx with hx | hx
      · exact (hit h1 hx).elim
      · exact (hit h2 hx).elim

end Pooling
end Mioco

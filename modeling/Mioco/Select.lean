import Mathlib.Logic.Function.Basic
import Mioco.Token
/-!
# The `select!` macro (src/mod.rs, src/evented.rs)

`select!` adds the source of every arm (`@wrap1`), waits, and runs an unrolled sequence of independent `if`s
(`@wrap2`), each of which reads the id of its source anew.  The code of an arm may block on, or select over, any
source, and so overwrite the ids that the arms after it read.
-/
namespace Mioco

/-- What `select!` reads of the coroutine and of the event sources `σ`. -/
structure Sources (σ : Type) where
  /-- `common.id` of every source -/
  id : σ → Option Nat
  /-- `common.blocked_on` of every source -/
  interest : σ → RW
  /-- `blocked_on` of the coroutine -/
  blockedOn : List σ
  lastEvent : Event

namespace Sources
variable {σ : Type} [DecidableEq σ]

/-- `select_add_prv`. -/
def selectAdd (s : Sources σ) (src : σ) (rw : RW) : Sources σ where
  id := Function.update s.id src (some s.blockedOn.length)
  interest := Function.update s.interest src rw
  blockedOn := s.blockedOn ++ [src]
  lastEvent := s.lastEvent

omit [DecidableEq σ] in
/-- The coroutine switches out and is resumed by `e`: `unblock` stores the event and drains `blocked_on`. -/
def resumedBy (s : Sources σ) (e : Event) : Sources σ := { s with blockedOn := [], lastEvent := e }

/-- `block_on_prv`, up to its return. -/
def blockOn (s : Sources σ) (src : σ) (rw : RW) (e : Event) : Sources σ := (s.selectAdd src rw).resumedBy e

end Sources

/-- What the code of an arm can do to the event sources. -/
inductive SourceOp (σ : Type)
  | blockOn (src : σ) (rw : RW) (e : Event)
  | selectAdd (src : σ) (rw : RW)
  | selectWait (e : Event)

/-- How a piece of code is left. -/
inductive Exit
  /-- at its end -/
  | fallsThrough
  /-- by `return`, `break`, a panic or the kill of the coroutine, or not at all -/
  | leaves
deriving DecidableEq, Repr

/-- One arm `rw:rx => code`; `code` is what the body does from the state it is entered in. -/
structure Arm (σ : Type) where
  rw : RW
  rx : σ
  code : Sources σ → List (SourceOp σ) × Exit

section
variable {σ : Type} [DecidableEq σ]

def SourceOp.apply (s : Sources σ) : SourceOp σ → Sources σ
  | .blockOn src rw e => s.blockOn src rw e
  | .selectAdd src rw => s.selectAdd src rw
  | .selectWait e => s.resumedBy e

/-- The sources after the code of the arm. -/
def Arm.after (a : Arm σ) (s : Sources σ) : Sources σ := (a.code s).1.foldl SourceOp.apply s

/-- `@wrap1`. -/
def wrap1 (arms : List (Arm σ)) (s : Sources σ) : Sources σ :=
  arms.foldl (fun s a => s.selectAdd a.rx a.rw) s

/-- `@wrap2`: the arms whose code is executed, numbered from `k` and in order.  `id()` panics on a source without
id. -/
def wrap2 (ret : Event) : Nat → List (Arm σ) → Sources σ → List Nat
  | _, [], _ => []
  | k, a :: arms, s =>
    match s.id a.rx with
    | none => []
    | some id =>
      if ret.id = id then
        match (a.code s).2 with
        | .fallsThrough => k :: wrap2 ret (k + 1) arms (a.after s)
        | .leaves => [k]
      else wrap2 ret (k + 1) arms s

/-- `select!` over `arms`, with `ret` returned by `select_wait`. -/
def select (arms : List (Arm σ)) (s : Sources σ) (ret : Event) : List Nat :=
  wrap2 ret 0 arms ((wrap1 arms s).resumedBy ret)

/-! ## Ids -/

omit [DecidableEq σ] in
@[simp] theorem Sources.resumedBy_id (s : Sources σ) (e : Event) : (s.resumedBy e).id = s.id := rfl

theorem wrap1_id_of_not_mem {src : σ} : ∀ (arms : List (Arm σ)) (s : Sources σ), src ∉ arms.map Arm.rx →
    (wrap1 arms s).id src = s.id src
  | [], _, _ => rfl
  | a :: arms, s, h => by
    rw [List.map_cons, List.mem_cons, not_or] at h
    show (wrap1 arms (s.selectAdd a.rx a.rw)).id src = s.id src
    rw [wrap1_id_of_not_mem arms _ h.2]
    exact Function.update_of_ne h.1 _ _

/-- **The id of an arm's source** is its position, counted from what was on `blocked_on` already. -/
theorem wrap1_id : ∀ (arms : List (Arm σ)) (s : Sources σ), (arms.map Arm.rx).Nodup →
    ∀ (k : Nat) (a : Arm σ), arms[k]? = some a → (wrap1 arms s).id a.rx = some (s.blockedOn.length + k)
  | [], _, _, _, _, h => by simp at h
  | b :: arms, s, hd, k, a, h => by
    rw [List.map_cons, List.nodup_cons] at hd
    cases k with
    | zero =>
      obtain rfl : b = a := by simpa using h
      show (wrap1 arms (s.selectAdd b.rx b.rw)).id b.rx = _
      rw [wrap1_id_of_not_mem arms _ hd.1]
      exact Function.update_self _ _ _
    | succ k =>
      have := wrap1_id arms (s.selectAdd b.rx b.rw) hd.2 k a (by simpa using h)
      show (wrap1 arms (s.selectAdd b.rx b.rw)).id a.rx = _
      rw [this, Sources.selectAdd, List.length_append, List.length_singleton]
      congr 1
      omega

/-- A source that has an id keeps one. -/
theorem SourceOp.apply_id_isSome (s : Sources σ) (op : SourceOp σ) {src : σ} (h : (s.id src).isSome) :
    ((op.apply s).id src).isSome := by
  have hupd : ∀ (src' : σ) (n : Nat), (Function.update s.id src' (some n) src).isSome := fun src' n => by
    by_cases he : src = src'
    · subst he
      rw [Function.update_self, Option.isSome_some]
    · rwa [Function.update_of_ne he]
  cases op with
  | blockOn src' rw e => exact hupd src' _
  | selectAdd src' rw => exact hupd src' _
  | selectWait e => exact h

theorem Arm.after_id_isSome (a : Arm σ) (s : Sources σ) {src : σ} (h : (s.id src).isSome) :
    ((a.after s).id src).isSome := by
  unfold Arm.after
  generalize (a.code s).1 = ops
  induction ops generalizing s with
  | nil => exact h
  | cons op ops ih => exact ih (op.apply s) (op.apply_id_isSome s h)

/-! ## Dispatch -/

/-- With no arm of the returned id left, nothing more is executed. -/
theorem wrap2_eq_nil (ret : Event) : ∀ (k : Nat) (arms : List (Arm σ)) (s : Sources σ),
    (∀ a ∈ arms, (s.id a.rx).isSome) →
      (wrap2 ret k arms s = [] ↔ ∀ a ∈ arms, s.id a.rx ≠ some ret.id)
  | _, [], _, _ => by simp [wrap2]
  | k, a :: arms, s, hs => by
    obtain ⟨id, hid⟩ := Option.isSome_iff_exists.1 (hs a List.mem_cons_self)
    rw [wrap2, hid]
    simp only [List.forall_mem_cons, hid, ne_eq, Option.some.injEq]
    by_cases he : ret.id = id
    · rw [if_pos he]
      refine iff_of_false ?_ (fun h => h.1 he.symm)
      cases (a.code s).2 <;> simp
    · rw [if_neg he, wrap2_eq_nil ret (k + 1) arms s (fun b hb => hs b (List.mem_cons_of_mem _ hb))]
      exact ⟨fun h => ⟨fun h' => he h'.symm, h⟩, And.right⟩

/-- The arms before the one of the returned id are passed over. -/
theorem wrap2_skip (ret : Event) : ∀ (i j : Nat) (arms : List (Arm σ)) (s : Sources σ) (a : Arm σ),
    arms[j]? = some a → (∀ b ∈ arms, (s.id b.rx).isSome) → s.id a.rx = some ret.id →
    (∀ (i : Nat) (b : Arm σ), i < j → arms[i]? = some b → s.id b.rx ≠ some ret.id) →
      wrap2 ret i arms s = match (a.code s).2 with
        | .fallsThrough => (i + j) :: wrap2 ret (i + j + 1) (arms.drop (j + 1)) (a.after s)
        | .leaves => [i + j]
  | _, _, [], _, _, h, _, _, _ => by simp at h
  | i, 0, b :: arms, s, a, h, _, hid, _ => by
    cases h
    rw [wrap2, hid]
    simp
  | i, j + 1, b :: arms, s, a, h, hs, hid, hbefore => by
    obtain ⟨idb, hidb⟩ := Option.isSome_iff_exists.1 (hs b List.mem_cons_self)
    have hne : ret.id ≠ idb := fun he => hbefore 0 b (Nat.succ_pos _) rfl (he ▸ hidb)
    rw [wrap2, hidb]
    simp only [if_neg hne]
    rw [wrap2_skip ret (i + 1) j arms s a (by simpa using h) (fun c hc => hs c (List.mem_cons_of_mem _ hc)) hid
      (fun l c hl hc => hbefore (l + 1) c (Nat.succ_lt_succ hl) (by simpa using hc))]
    simp only [List.drop_succ_cons, show i + 1 + j = i + (j + 1) by omega]

/-- **Exactly one arm.**  When `select_wait` returns the id of arm `k`, its code is executed once and no other exactly
when that code does not reach its end, or no source of a later arm has the returned id when it does. -/
theorem select_exactly_one (arms : List (Arm σ)) (hd : (arms.map Arm.rx).Nodup) (s : Sources σ) (ret : Event)
    (k : Nat) (a : Arm σ) (hk : arms[k]? = some a) (hret : (wrap1 arms s).id a.rx = some ret.id) :
    select arms s ret = [k] ↔
      (a.code ((wrap1 arms s).resumedBy ret)).2 = .leaves ∨
        ∀ b ∈ arms.drop (k + 1), (a.after ((wrap1 arms s).resumedBy ret)).id b.rx ≠ some ret.id := by
  have hids : ∀ b ∈ arms, (((wrap1 arms s).resumedBy ret).id b.rx).isSome := fun b hb => by
    obtain ⟨j, hj⟩ := List.mem_iff_getElem?.1 hb
    rw [Sources.resumedBy_id, wrap1_id arms s hd j b hj, Option.isSome_some]
  have hbefore : ∀ (i : Nat) (b : Arm σ), i < k → arms[i]? = some b →
      ((wrap1 arms s).resumedBy ret).id b.rx ≠ some ret.id := fun i b hi hb he => by
    rw [Sources.resumedBy_id, wrap1_id arms s hd i b hb, ← hret, wrap1_id arms s hd k a hk] at he
    have := Option.some.inj he
    omega
  rw [select, wrap2_skip ret 0 k arms _ a hk hids hret hbefore]
  cases hleft : (a.code ((wrap1 arms s).resumedBy ret)).2 with
  | leaves => simp
  | fallsThrough =>
    have hids' : ∀ b ∈ arms.drop (k + 1), ((a.after ((wrap1 arms s).resumedBy ret)).id b.rx).isSome :=
      fun b hb => a.after_id_isSome _ (hids b (List.mem_of_mem_drop hb))
    rw [← wrap2_eq_nil ret (0 + k + 1) _ _ hids']
    simp

/-- `select!(r:rx0 => { rx1.recv() }, r:rx1 => {})`, the body of the first arm blocking on the source of the second. -/
def recvOther : List (Arm Nat) :=
  [⟨RW.ofRead, 0, fun _ => ([.blockOn 1 RW.ofRead ⟨0, RW.ofRead⟩], .fallsThrough)⟩,
   ⟨RW.ofRead, 1, fun _ => ([], .fallsThrough)⟩]

/-- Before any `select!`: no source has an id. -/
def freshSources : Sources Nat where
  id _ := none
  interest _ := RW.none
  blockedOn := []
  lastEvent := ⟨0, RW.ofRead⟩

theorem select_exactly_one_recvOther :
    (recvOther.map Arm.rx).Nodup ∧ select recvOther freshSources ⟨1, RW.ofRead⟩ = [1] :=
  ⟨by decide, (select_exactly_one recvOther (by decide) freshSources ⟨1, RW.ofRead⟩ 1 _ rfl rfl).2
    (.inr (by simp [recvOther]))⟩

/-- Both arms of `recvOther` run when the first source is ready. -/
theorem select_runs_two : ¬ ∀ (arms : List (Arm Nat)) (s : Sources Nat) (ret : Event) (k : Nat) (a : Arm Nat),
    (arms.map Arm.rx).Nodup → arms[k]? = some a → (wrap1 arms s).id a.rx = some ret.id → select arms s ret = [k] := by
  intro h
  exact absurd (h recvOther freshSources ⟨0, RW.ofRead⟩ 0 _ (by decide) rfl rfl) (by decide)

end
end Mioco

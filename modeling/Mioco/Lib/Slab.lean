import Mioco.Lib.Tally
/-!
# Slabs

A slab keeps values under ids that start at `first`; a freed id is used again.  Which vacant id an insertion takes is
left to the caller.  Nothing here names a program.
-/
namespace Lib

structure Slab (first : Nat) (β : Type) where
  slots : List (Option β)
deriving DecidableEq, Repr

namespace Slab

variable {first : Nat} {β : Type}

def empty (capacity : Nat) : Slab first β := ⟨List.replicate capacity none⟩

def count (s : Slab first β) : Nat := s.slots.countP Option.isSome

def remaining (s : Slab first β) : Nat := s.slots.length - s.count

def hasRemaining (s : Slab first β) : Bool := decide (0 < s.remaining)

def grow (s : Slab first β) (n : Nat) : Slab first β := ⟨s.slots ++ List.replicate n none⟩

def get (s : Slab first β) (id : Nat) : Option β := if id < first then none else s.slots[id - first]?.join

def contains (s : Slab first β) (id : Nat) : Bool := (s.get id).isSome

/-- Insertion at `id`, where that place exists and is vacant. -/
def insertAt (s : Slab first β) (id : Nat) (x : β) : Option (Slab first β) :=
  if first ≤ id ∧ s.slots[id - first]?.map Option.isSome = some false then some ⟨s.slots.set (id - first) (some x)⟩
  else none

def remove (s : Slab first β) (id : Nat) : Option (Slab first β) :=
  if s.contains id then some ⟨s.slots.set (id - first) none⟩ else none

/-- The first occupied place in `[i, last)`, for an id `i`. -/
def nextFrom (s : Slab first β) (i last : Nat) : Option Nat :=
  (((s.slots.drop (i - first)).take (last - i)).findIdx? Option.isSome).map (i + ·)

/-! ## What the operations do -/

theorem get_eq_some {s : Slab first β} {id : Nat} {x : β} :
    s.get id = some x ↔ first ≤ id ∧ s.slots[id - first]? = some (some x) := by
  unfold get
  split
  · simp only [reduceCtorEq, false_iff]
    omega
  · simp only [Option.join_eq_some_iff, and_iff_right (Nat.le_of_not_lt ‹_›)]

theorem get_set {s : Slab first β} {id j : Nat} {x : Option β} (hid : first ≤ id) (hlt : id - first < s.slots.length) :
    (⟨s.slots.set (id - first) x⟩ : Slab first β).get j = if j = id then x else s.get j := by
  unfold get
  by_cases hj : j < first
  · rw [if_pos hj, if_pos hj, if_neg (by omega)]
  · rw [if_neg hj, if_neg hj]
    simp only
    by_cases he : j = id
    · subst he
      rw [if_pos rfl, List.getElem?_set_self hlt, Option.join_some]
    · rw [if_neg he, List.getElem?_set_ne (by omega)]

theorem count_set {s : Slab first β} {id : Nat} {x y : Option β} (h : s.slots[id - first]? = some x) :
    (⟨s.slots.set (id - first) y⟩ : Slab first β).count + x.isSome.toNat = s.count + y.isSome.toNat :=
  countP_set_add Option.isSome y h

/-- **What an insertion does.** -/
theorem insertAt_some {s s' : Slab first β} {id : Nat} {x : β} (h : s.insertAt id x = some s') :
    s.get id = none ∧ (∀ j, s'.get j = if j = id then some x else s.get j) ∧ s'.count = s.count + 1 ∧
      s'.slots.length = s.slots.length := by
  unfold insertAt at h
  split at h
  · rename_i hv
    cases h
    obtain ⟨hid, hv⟩ := hv
    obtain ⟨o, ho, hnone⟩ := Option.map_eq_some_iff.1 hv
    obtain rfl : o = none := Option.isSome_eq_false_iff.1 hnone |> Option.isNone_iff_eq_none.1
    refine ⟨?_, fun j => get_set hid (List.getElem?_eq_some_iff.1 ho).1, ?_, List.length_set⟩
    · rw [get, if_neg (by omega), ho, Option.join_some]
    · simpa using count_set (y := some x) ho
  · cases h

/-- **What a removal does.** -/
theorem remove_some {s s' : Slab first β} {id : Nat} (h : s.remove id = some s') :
    (s.get id).isSome = true ∧ (∀ j, s'.get j = if j = id then none else s.get j) ∧ s'.count + 1 = s.count ∧
      s'.slots.length = s.slots.length := by
  unfold remove at h
  split at h
  · rename_i hc
    cases h
    obtain ⟨x, hx⟩ := Option.isSome_iff_exists.1 hc
    obtain ⟨hid, hsome⟩ := get_eq_some.1 hx
    refine ⟨hc, fun j => get_set hid (List.getElem?_eq_some_iff.1 hsome).1, ?_, List.length_set⟩
    simpa using count_set (y := none) hsome
  · cases h

theorem remove_isSome {s : Slab first β} {id : Nat} {x : β} (h : s.get id = some x) : ∃ s', s.remove id = some s' :=
  ⟨_, if_pos (show s.contains id = true by rw [contains, h, Option.isSome_some])⟩

theorem remove_none {s : Slab first β} {id : Nat} (h : s.remove id = none) : s.get id = none := by
  cases hg : s.get id with
  | none => rfl
  | some x =>
    obtain ⟨s', hs⟩ := remove_isSome hg
    rw [hs] at h
    cases h

@[simp] theorem get_grow (s : Slab first β) (n id : Nat) : (s.grow n).get id = s.get id := by
  unfold get grow
  split
  · rfl
  · rw [List.getElem?_append]
    split
    · rfl
    · rename_i hlt
      rw [List.getElem?_eq_none (Nat.le_of_not_lt hlt), Option.join_none, List.getElem?_replicate]
      split <;> rfl

@[simp] theorem count_grow (s : Slab first β) (n : Nat) : (s.grow n).count = s.count := by
  simp [count, grow, List.countP_append, List.countP_replicate]

@[simp] theorem get_empty (n id : Nat) : (Slab.empty n : Slab first β).get id = none := by
  unfold get empty
  split
  · rfl
  · rw [List.getElem?_replicate]
    split <;> rfl

@[simp] theorem count_empty (n : Nat) : (Slab.empty n : Slab first β).count = 0 := by
  simp [count, empty, List.countP_replicate]

theorem count_le (s : Slab first β) : s.count ≤ s.slots.length := List.countP_le_length

theorem count_pos {s : Slab first β} {id : Nat} {x : β} (h : s.get id = some x) : 0 < s.count :=
  countP_pos_of_getElem? (get_eq_some.1 h).2 rfl

/-- **Every occupied id** is below `first` plus what is occupied and what remains. -/
theorem get_lt {s : Slab first β} {id : Nat} {x : β} (h : s.get id = some x) :
    first ≤ id ∧ id < first + (s.count + s.remaining) := by
  obtain ⟨hid, hsome⟩ := get_eq_some.1 h
  have hlt := (List.getElem?_eq_some_iff.1 hsome).1
  have := s.count_le
  unfold remaining
  omega

theorem exists_insertAt {s : Slab first β} (h : s.hasRemaining = true) (x : β) : ∃ id s', s.insertAt id x = some s' := by
  have hlt : s.count < s.slots.length := by
    have := of_decide_eq_true h
    unfold remaining at this
    omega
  obtain ⟨o, ho, hnone⟩ : ∃ o ∈ s.slots, ¬ Option.isSome o = true := by
    by_contra hno
    push Not at hno
    exact Nat.ne_of_lt hlt (List.countP_eq_length.2 hno)
  obtain ⟨i, hi⟩ := List.mem_iff_getElem?.1 ho
  refine ⟨i + first, _, if_pos ⟨Nat.le_add_left _ _, ?_⟩⟩
  rw [Nat.add_sub_cancel, hi]
  simpa using hnone

theorem get_drop {s : Slab first β} {i k : Nat} (hi : first ≤ i) : (s.slots.drop (i - first))[k]?.join = s.get (i + k) := by
  rw [List.getElem?_drop, get, if_neg (by omega), show i - first + k = i + k - first by omega]

theorem nextFrom_none {s : Slab first β} {i last : Nat} (hi : first ≤ i) (h : s.nextFrom i last = none) :
    ∀ j, i ≤ j → j < last → s.get j = none := by
  intro j hij hj
  have hall := List.findIdx?_eq_none_iff.1 (Option.map_eq_none_iff.1 h)
  rw [show j = i + (j - i) by omega, ← get_drop hi]
  cases ho : (s.slots.drop (i - first))[j - i]? with
  | none => rfl
  | some o =>
    have hmem : o ∈ (s.slots.drop (i - first)).take (last - i) :=
      List.mem_iff_getElem?.2 ⟨j - i, by rw [List.getElem?_take_of_lt (by omega), ho]⟩
    simpa using hall o hmem

theorem nextFrom_some {s : Slab first β} {i last j : Nat} (hi : first ≤ i) (h : s.nextFrom i last = some j) :
    i ≤ j ∧ j < last ∧ (s.get j).isSome = true ∧ ∀ k, i ≤ k → k < j → s.get k = none := by
  obtain ⟨d, hd, rfl⟩ := Option.map_eq_some_iff.1 h
  obtain ⟨hlt, hocc, hbefore⟩ := List.findIdx?_eq_some_iff_getElem.1 hd
  have hlen := hlt
  rw [List.length_take] at hlen
  have hat : ∀ k (hk : k ≤ d), s.get (i + k) = ((s.slots.drop (i - first)).take (last - i))[k] := by
    intro k hk
    rw [← get_drop hi, List.getElem_take, List.getElem?_eq_getElem (by omega), Option.join_some]
  refine ⟨by omega, by omega, ?_, fun k hik hk => ?_⟩
  · rw [hat d (Nat.le_refl d)]
    exact hocc
  · rw [show k = i + (k - i) by omega, hat (k - i) (by omega)]
    simpa using hbefore (k - i) (by omega)

end Slab
end Lib

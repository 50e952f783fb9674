import Mathlib.Data.List.Nodup
import Mathlib.Tactic.Common
/-!
# Turns in a circle

A cursor that goes round `n` places, and the places of consecutive turns: any window of `m * n` turns holds each place
`m` times.  Nothing here names a program.
-/
namespace Lib
namespace RoundRobin

/-- The cursor after a turn. -/
def next (n c : Nat) : Nat := if n ≤ c + 1 then 0 else c + 1

/-- The cursor after `k` turns. -/
def after (n : Nat) : Nat → Nat → Nat
  | c, 0 => c
  | c, k + 1 => after n (next n c) k

/-- The places of the next `k` turns. -/
def turns (n : Nat) : Nat → Nat → List Nat
  | _, 0 => []
  | c, k + 1 => c :: turns n (next n c) k

variable {n c : Nat}

theorem next_lt (h : c < n) : next n c < n := by
  unfold next
  split <;> omega

theorem after_add (n : Nat) : ∀ c k l : Nat, after n c (k + l) = after n (after n c k) l
  | c, 0, l => by rw [Nat.zero_add, after]
  | c, k + 1, l => by rw [Nat.succ_add, after, after, after_add n _ k l]

theorem turns_add (n : Nat) : ∀ c k l : Nat, turns n c (k + l) = turns n c k ++ turns n (after n c k) l
  | c, 0, l => by rw [Nat.zero_add, turns, after, List.nil_append]
  | c, k + 1, l => by rw [Nat.succ_add, turns, turns, after, turns_add n _ k l, List.cons_append]

/-- Up to the last place the turns just count on. -/
theorem turns_upTo : ∀ {c k : Nat}, c + k ≤ n → turns n c k = List.range' c k
  | _, 0, _ => rfl
  | c, k + 1, h => by
    rw [turns, List.range'_succ]
    cases k with
    | zero => rfl
    | succ k =>
      have hnext : next n c = c + 1 := if_neg (by omega)
      rw [hnext, turns_upTo (by omega : c + 1 + (k + 1) ≤ n)]

theorem after_upTo : ∀ {c k : Nat}, c + k < n → after n c k = c + k
  | _, 0, _ => rfl
  | c, k + 1, h => by
    have hnext : next n c = c + 1 := if_neg (by omega)
    rw [after, hnext, after_upTo (by omega : c + 1 + k < n)]
    omega

/-- The last of the places is followed by the first. -/
theorem after_toEnd (h : c < n) : after n c (n - c) = 0 := by
  obtain ⟨k, hk⟩ : ∃ k, n - c = k + 1 := ⟨n - c - 1, by omega⟩
  have hcount : after n c k = c + k := after_upTo (by omega)
  have hlast : next n (c + k) = 0 := if_pos (by omega)
  rw [hk, after_add, hcount]
  exact hlast

/-- **A full round comes back to where it began.** -/
theorem after_round (h : c < n) : after n c n = c := by
  calc after n c n = after n c (n - c + c) := by rw [Nat.sub_add_cancel (Nat.le_of_lt h)]
    _ = after n 0 c := by rw [after_add, after_toEnd h]
    _ = c := by rw [after_upTo (by omega), Nat.zero_add]

/-- **A full round visits every place once**, wherever it begins. -/
theorem turns_round (h : c < n) : (turns n c n).Perm (List.range n) := by
  have hsplit : turns n c n = List.range' c (n - c) ++ List.range' 0 c := by
    calc turns n c n = turns n c (n - c + c) := by rw [Nat.sub_add_cancel (Nat.le_of_lt h)]
      _ = turns n c (n - c) ++ turns n 0 c := by rw [turns_add, after_toEnd h]
      _ = List.range' c (n - c) ++ List.range' 0 c := by rw [turns_upTo (by omega), turns_upTo (by omega)]
  have hjoin : List.range' 0 c ++ List.range' c (n - c) = List.range n := by
    have happ := @List.range'_append 0 c (n - c) 1
    rw [Nat.one_mul, Nat.zero_add, Nat.add_sub_cancel' (Nat.le_of_lt h)] at happ
    rw [happ, List.range_eq_range']
  rw [hsplit, ← hjoin]
  exact List.perm_append_comm

/-- **Any window of whole rounds holds each place equally often.** -/
theorem count_turns (h : c < n) {i : Nat} (hi : i < n) : ∀ m : Nat, (turns n c (m * n)).count i = m
  | 0 => by rw [Nat.zero_mul]; rfl
  | m + 1 => by
    have hround : (turns n c n).count i = 1 := by
      rw [(turns_round h).count_eq]
      exact List.count_eq_one_of_mem List.nodup_range (List.mem_range.2 hi)
    rw [Nat.succ_mul, Nat.add_comm, turns_add, List.count_append, hround, after_round h, count_turns h hi m,
      Nat.add_comm]

theorem mem_turns_round (h : c < n) {i : Nat} (hi : i < n) : i ∈ turns n c n :=
  (turns_round h).mem_iff.2 (List.mem_range.2 hi)

end RoundRobin
end Lib

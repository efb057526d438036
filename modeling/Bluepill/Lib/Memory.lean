/-
  Memories of cells, and copying.

  A memory is a function from addresses to cells.  `copy mem p m k` is the
  memory after the `k` cells from `p` have been copied to `m`, and `copy_succ`
  takes the first step of a copying loop.  `moves` is the memory after items of
  several cells have been moved one after the other, whether they overlap or not.
-/
import Mathlib.Logic.Function.Basic
import Mathlib.Tactic.Common
import Mathlib.Tactic.Ring

namespace Memory

variable {β : Type*}

/-- The `n` cells from `a`. -/
def get (mem : ℕ → β) (a n : ℕ) : List β := (List.range n).map fun i => mem (a + i)

/-- The memory with the cells `l` written from `a` on. -/
def put (mem : ℕ → β) (a : ℕ) (l : List β) : ℕ → β :=
  fun x => if a ≤ x then l[x - a]?.getD (mem x) else mem x

/-- The memory with the `k` cells from `p` copied to `m`. -/
def copy (mem : ℕ → β) (p m k : ℕ) : ℕ → β :=
  fun a => if m ≤ a ∧ a < m + k then mem (p + (a - m)) else mem a

/-- The memory after `k` items of `w` cells were moved in turn, from `p`, `p + dp`, … to `m`,
    `m + dm`, … -/
def moves (mem : ℕ → β) (p dp m dm w k : ℕ) : ℕ → β :=
  (List.range k).foldl (fun mem i => put mem (m + i * dm) (get mem (p + i * dp) w)) mem

variable (mem : ℕ → β) {p m k : ℕ}

@[simp] theorem length_get (a n : ℕ) : (get mem a n).length = n := by simp [get]

theorem get_succ (a n : ℕ) : get mem a (n + 1) = mem a :: get mem (a + 1) n := by
  simp only [get, List.range_succ_eq_map, List.map_cons, List.map_map, Nat.add_zero]
  congr 2; funext i
  show mem (a + (i + 1)) = mem (a + 1 + i)
  congr 1; omega

theorem put_apply_of_le {a x : ℕ} (l : List β) (h : x < a ∨ a + l.length ≤ x) :
    put mem a l x = mem x := by
  unfold put
  split
  · rw [List.getElem?_eq_none (by omega)]; rfl
  · rfl

theorem put_singleton (a : ℕ) (b : β) : put mem a [b] = Function.update mem a b := by
  funext x
  by_cases hx : x = a
  · subst hx; simp [put]
  · rw [Function.update_of_ne hx]
    exact put_apply_of_le mem [b] (by simp; omega)

@[simp] theorem copy_zero : copy mem p m 0 = mem := by
  funext a
  exact if_neg (by omega)

theorem copy_dest {i : ℕ} (h : i < k) : copy mem p m k (m + i) = mem (p + i) := by
  rw [copy, if_pos (by omega)]
  congr 2; omega

theorem copy_other {a : ℕ} (h : a < m ∨ m + k ≤ a) : copy mem p m k a = mem a :=
  if_neg (by omega)

/-- Copying starts with the first cell, if that is not a source of the others. -/
theorem copy_succ (h : m ≤ p ∨ p + k < m) :
    copy (Function.update mem m (mem p)) (p + 1) (m + 1) k = copy mem p m (k + 1) := by
  funext a
  by_cases ha : m + 1 ≤ a ∧ a < m + 1 + k
  · rw [copy, if_pos ha, copy, if_pos (by omega), Function.update_of_ne (by omega)]
    congr 1; omega
  · rw [copy, if_neg ha]
    by_cases ham : a = m
    · subst ham
      rw [Function.update_self, copy, if_pos (by omega)]; simp
    · rw [Function.update_of_ne ham, copy_other mem (by omega)]

/-- The first item, and then the others. -/
theorem moves_succ (p dp m dm w k : ℕ) : moves mem p dp m dm w (k + 1) =
    moves (put mem m (get mem p w)) (p + dp) dp (m + dm) dm w k := by
  have hnext : ∀ a d i : ℕ, a + (i + 1) * d = a + d + i * d := fun a d i => by ring
  simp only [moves, List.range_succ_eq_map, List.foldl_cons, List.foldl_map, Nat.zero_mul,
    Nat.add_zero, Nat.succ_eq_add_one, hnext]

end Memory

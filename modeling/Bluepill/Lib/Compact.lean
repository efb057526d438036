/-
  Dropping elements of a buffer in place.

  A loop over a buffer keeps some of its elements and moves them to the front; an automaton, whose
  state outlives the loop, says which (`loop`).  The elements that it leaves are those that the
  automaton keeps of the list (`loop_keep`), since the place that is written is never ahead of the
  one that is read.
-/
import Mathlib.Data.List.Basic

namespace Compact

variable {σ α : Type*} (step : σ → α → σ × Bool)

/-- The elements that the automaton keeps, and its last state. -/
def keep (s : σ) : List α → σ × List α
  | [] => (s, [])
  | a :: l =>
    let r := keep (step s a).1 l
    (r.1, if (step s a).2 then a :: r.2 else r.2)

theorem keep_append (s : σ) (l l' : List α) : keep step s (l ++ l') =
    ((keep step (keep step s l).1 l').1, (keep step s l).2 ++ (keep step (keep step s l).1 l').2) := by
  induction l generalizing s with
  | nil => rfl
  | cons a l ih =>
    simp only [List.cons_append, keep, ih]
    split <;> rfl

/-- `k` more rounds, the next of them for the element at `i`; `j` elements have been kept. -/
def loop : ℕ → ℕ → σ → List α → ℕ → σ × List α × ℕ
  | 0, _, s, buf, j => (s, buf, j)
  | k + 1, i, s, buf, j =>
    match buf[i]? with
    | none => (s, buf, j)
    | some a =>
      if (step s a).2 then loop k (i + 1) (step s a).1 (if j ≠ i then buf.set j a else buf) (j + 1)
      else loop k (i + 1) (step s a).1 buf j

/-- An element that is moved to the front. -/
theorem set_kept {buf : List α} {i j : ℕ} {a : α} (hj : j ≤ i) (ha : buf[i]? = some a) :
    (if j ≠ i then buf.set j a else buf).drop (i + 1) = buf.drop (i + 1) ∧
      (if j ≠ i then buf.set j a else buf).take (j + 1) = buf.take j ++ [a] ∧
      (if j ≠ i then buf.set j a else buf).length = buf.length := by
  have hi : i < buf.length := (List.getElem?_eq_some_iff.1 ha).1
  have hlt : j < buf.length := Nat.lt_of_le_of_lt hj hi
  split
  case isTrue =>
    refine ⟨List.drop_set_of_lt (by omega), ?_, List.length_set⟩
    rw [List.take_add_one, List.take_set_of_le (Nat.le_refl j), List.getElem?_set_self hlt]
    rfl
  case isFalse h =>
    rw [not_not] at h
    refine ⟨rfl, ?_, rfl⟩
    rw [List.take_add_one, h, ha]
    rfl

/-- **The loop leaves what the automaton keeps.** -/
theorem loop_keep {k i j : ℕ} {s : σ} {buf : List α} (hk : buf.length = i + k) (hj : j ≤ i) :
    ∃ buf' j', loop step k i s buf j = ((keep step s (buf.drop i)).1, buf', j') ∧
      buf'.take j' = buf.take j ++ (keep step s (buf.drop i)).2 ∧ j' ≤ i + k ∧ buf'.length = buf.length := by
  -- the place that is written stays behind the one that is read, so what is still to be read is as it was
  induction k generalizing i j s buf with
  | zero =>
    rw [List.drop_eq_nil_of_le (by omega)]
    exact ⟨buf, j, rfl, (List.append_nil _).symm, by omega, rfl⟩
  | succ k ih =>
    have hi : i < buf.length := by omega
    obtain ⟨a, ha⟩ : ∃ a, buf[i]? = some a := ⟨_, List.getElem?_eq_getElem hi⟩
    have hdrop : buf.drop i = a :: buf.drop (i + 1) := by
      rw [List.drop_eq_getElem_cons hi]
      exact congrArg (· :: _) (List.getElem?_eq_some_iff.1 ha).2
    rw [loop, ha, hdrop, keep]
    dsimp only
    split
    case isTrue hkeep =>
      obtain ⟨hrest, hfront, hlen⟩ := set_kept hj ha
      obtain ⟨buf', j', hloop, htake, hle, hlen'⟩ :=
        ih (s := (step s a).1) (show _ = i + 1 + k by rw [hlen]; omega) (Nat.succ_le_succ hj)
      rw [hrest] at hloop htake
      refine ⟨buf', j', hloop, ?_, by omega, hlen'.trans hlen⟩
      rw [htake, hfront, List.append_assoc]
      rfl
    case isFalse hkeep =>
      obtain ⟨buf', j', hloop, htake, hle, hlen⟩ :=
        ih (s := (step s a).1) (show buf.length = i + 1 + k by omega) (Nat.le_succ_of_le hj)
      exact ⟨buf', j', hloop, htake, by omega, hlen⟩

end Compact

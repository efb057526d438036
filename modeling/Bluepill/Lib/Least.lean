/-
  A scan for the least key.

  `scan p key b n` goes through the numbers below `n` and keeps the one with the least key
  so far, among those that satisfy `p` and have a key below that of the start value `b`.
  It ends with the first of those with the least key (`First`), or with `b` if there are
  none.
-/
import Mathlib.Data.List.Range
import Mathlib.Order.Lattice
import Mathlib.Tactic.Common

namespace Least

variable {β : Type*} [LinearOrder β] (p : ℕ → Bool) (key : ℕ → β)

def scan (b : β × ℕ) (n : ℕ) : β × ℕ :=
  (List.range n).foldl (fun b x => if p x then if key x < b.1 then (key x, x) else b else b) b

/-- Of the numbers below `n` with `p`, `a` is the first with the least key. -/
structure First (n a : ℕ) : Prop where
  lt : a < n
  sat : p a = true
  least : ∀ x < n, p x = true → key a ≤ key x
  first : ∀ x < a, p x = true → key a < key x

variable {p key} {b : β × ℕ} {n : ℕ}

theorem scan_succ (b : β × ℕ) (n : ℕ) : scan p key b (n + 1) =
    if p n then if key n < (scan p key b n).1 then (key n, n) else scan p key b n
    else scan p key b n := by
  rw [scan, List.range_succ, List.foldl_append]
  rfl

theorem scan_le_start (b : β × ℕ) (n : ℕ) : (scan p key b n).1 ≤ b.1 := by
  induction n with
  | zero => exact le_rfl
  | succ n ih =>
    rw [scan_succ]
    split_ifs with hp hkey
    · exact hkey.le.trans ih
    · exact ih
    · exact ih

theorem scan_le (b : β × ℕ) : ∀ x < n, p x = true → (scan p key b n).1 ≤ key x := by
  induction n with
  | zero => simp
  | succ n ih =>
    intro x hx hpx
    rw [scan_succ]
    rcases Nat.lt_succ_iff_lt_or_eq.1 hx with hx | rfl
    · split_ifs with hp hkey
      · exact hkey.le.trans (ih x hx hpx)
      · exact ih x hx hpx
      · exact ih x hx hpx
    · rw [if_pos hpx]
      split_ifs with hkey
      · exact le_rfl
      · exact not_lt.1 hkey

variable (p key)

/-- **What a scan ends with.** -/
theorem scan_cases (b : β × ℕ) (n : ℕ) :
    (scan p key b n = b ∧ ∀ x < n, p x = true → b.1 ≤ key x) ∨
      ∃ a, First p key n a ∧ key a < b.1 ∧ scan p key b n = (key a, a) := by
  have hresult : scan p key b n = b ∨ ∃ a < n, p a = true ∧ (∀ x < a, p x = true → key a < key x) ∧
      key a < b.1 ∧ scan p key b n = (key a, a) := by
    induction n with
    | zero => exact .inl rfl
    | succ n ih =>
      rw [scan_succ]
      split_ifs with hp hkey
      · refine .inr ⟨n, Nat.lt_succ_self n, hp, fun x hx hpx => ?_, hkey.trans_le (scan_le_start b n), rfl⟩
        exact hkey.trans_le (scan_le b x hx hpx)
      · exact ih.imp_right fun ⟨a, ha, h⟩ => ⟨a, ha.trans (Nat.lt_succ_self n), h⟩
      · exact ih.imp_right fun ⟨a, ha, h⟩ => ⟨a, ha.trans (Nat.lt_succ_self n), h⟩
  have hle : ∀ x < n, p x = true → (scan p key b n).1 ≤ key x := scan_le b
  rcases hresult with heq | ⟨a, ha, hp, hfirst, hlt, heq⟩
  · rw [heq] at hle
    exact .inl ⟨heq, hle⟩
  · rw [heq] at hle
    exact .inr ⟨a, ⟨ha, hp, hle, hfirst⟩, hlt, heq⟩

end Least

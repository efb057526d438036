/-
  Flags that share outputs.

  Each flag `a` belongs to the output `g a`.  An output should be high exactly
  when one of its flags is set (`Driven`).  Here an output is driven by the changes
  of its flags alone: a flag that changes to `b` drives its output to `b`, whatever
  the other flags are (`change`).

  * Setting flags keeps the outputs right (`Driven.set`);
  * clearing flags keeps them right exactly when every set flag that shares an
    output with a cleared one is cleared as well (`Driven.clear_iff`).
-/
import Mathlib.Logic.Function.Basic
import Mathlib.Tactic.Common

namespace WiredOr

variable {α ι : Type*} [DecidableEq α] [DecidableEq ι]

structure Bank (α ι : Type*) where
  flag : α → Bool
  level : ι → Bool

/-- Give the flag `a` the value `b`, and drive its output if that is a change. -/
def change (g : α → ι) (b : Bool) (s : Bank α ι) (a : α) : Bank α ι :=
  if s.flag a = b then s
  else ⟨Function.update s.flag a b, Function.update s.level (g a) b⟩

/-- Every output is high exactly when one of its flags is set. -/
def Driven (g : α → ι) (s : Bank α ι) : Prop :=
  ∀ i, s.level i = true ↔ ∃ a, g a = i ∧ s.flag a = true

variable {g : α → ι} {b : Bool} {l : List α}

theorem change_flag (s : Bank α ι) (a a' : α) :
    (change g b s a).flag a' = if a' = a then b else s.flag a' := by
  unfold change
  by_cases ha : a' = a
  · subst ha; split <;> simp_all
  · split <;> simp [ha]

theorem change_level (s : Bank α ι) (a : α) (i : ι) :
    (change g b s a).level i = if g a = i ∧ s.flag a ≠ b then b else s.level i := by
  unfold change
  by_cases ha : s.flag a = b
  · simp [ha]
  · by_cases hi : g a = i
    · subst hi; simp [ha]
    · simp [ha, hi, Function.update_of_ne (Ne.symm hi)]

theorem foldl_change_flag (a : α) : ∀ s : Bank α ι,
    (l.foldl (change g b) s).flag a = if a ∈ l then b else s.flag a := by
  induction l with
  | nil => intro s; rfl
  | cons a' l ih =>
    intro s
    rw [List.foldl_cons, ih, change_flag]
    by_cases hl : a ∈ l <;> by_cases ha : a = a' <;> simp [hl, ha]

/-- An output is driven if one of its flags changes. -/
theorem foldl_change_level (i : ι) : ∀ s : Bank α ι,
    ((∃ a ∈ l, g a = i ∧ s.flag a ≠ b) → (l.foldl (change g b) s).level i = b) ∧
      ((∀ a ∈ l, g a = i → s.flag a = b) → (l.foldl (change g b) s).level i = s.level i) := by
  induction l with
  | nil => intro s; simp
  | cons a l ih =>
    intro s
    rw [List.foldl_cons]
    obtain ⟨ih₁, ih₂⟩ := ih (change g b s a)
    constructor
    · rintro ⟨a', ha', hi, hne⟩
      by_cases hl : ∃ a' ∈ l, g a' = i ∧ (change g b s a).flag a' ≠ b
      · exact ih₁ hl
      · -- the flags left in `l` have the value `b` already, so it was `a` that changed
        push Not at hl
        rw [ih₂ hl, change_level]
        rcases List.mem_cons.1 ha' with rfl | ha'
        · rw [if_pos ⟨hi, hne⟩]
        · have hb := hl a' ha' hi
          rw [change_flag] at hb
          split at hb
          · rename_i h; subst h; rw [if_pos ⟨hi, hne⟩]
          · exact absurd hb hne
    · intro hall
      rw [ih₂, change_level, if_neg]
      · rintro ⟨hi, hne⟩; exact hne (hall a (by simp) hi)
      · intro a' ha' hi
        rw [change_flag]
        split
        · rfl
        · exact hall a' (by simp [ha']) hi

/-- **Setting flags keeps the outputs right.** -/
theorem Driven.set {s : Bank α ι} (h : Driven g s) : Driven g (l.foldl (change g true) s) := by
  intro i
  obtain ⟨h₁, h₂⟩ := foldl_change_level (g := g) (b := true) (l := l) i s
  simp only [foldl_change_flag]
  by_cases hl : ∃ a ∈ l, g a = i ∧ s.flag a ≠ true
  · obtain ⟨a, ha, hi, -⟩ := id hl
    exact iff_of_true (h₁ hl) ⟨a, hi, by simp [ha]⟩
  · push Not at hl
    rw [h₂ hl, h i]
    refine exists_congr fun a => and_congr_right fun hi => ?_
    by_cases ha : a ∈ l
    · simp [ha, hl a ha hi]
    · simp [ha]

/-- **When clearing flags keeps the outputs right.** -/
theorem Driven.clear_iff {s : Bank α ι} (h : Driven g s) :
    Driven g (l.foldl (change g false) s) ↔
      ∀ a ∈ l, s.flag a = true → ∀ a', g a' = g a → s.flag a' = true → a' ∈ l := by
  constructor
  · intro hd a ha hset a' hg hset'
    by_contra hl
    -- the output of `a` is low, but `a'` is still set
    have hlow := (foldl_change_level (g := g) (b := false) (l := l) (g a) s).1
      ⟨a, ha, rfl, by simp [hset]⟩
    have hhigh := (hd (g a)).2 ⟨a', hg, by rw [foldl_change_flag, if_neg hl, hset']⟩
    exact absurd (hlow.symm.trans hhigh) (by decide)
  · intro hall i
    obtain ⟨h₁, h₂⟩ := foldl_change_level (g := g) (b := false) (l := l) i s
    by_cases hl : ∃ a ∈ l, g a = i ∧ s.flag a ≠ false
    · rw [h₁ hl]
      obtain ⟨a, ha, rfl, hset⟩ := hl
      refine iff_of_false (by decide) ?_
      rintro ⟨a', hg, hset'⟩
      rw [foldl_change_flag] at hset'
      split at hset'
      · cases hset'
      · rename_i hl; exact hl (hall a ha (by simpa using hset) a' hg hset')
    · push Not at hl
      rw [h₂ hl, h i]
      refine exists_congr fun a => and_congr_right fun hi => ?_
      rw [foldl_change_flag]
      split
      · rename_i ha; rw [hl a ha hi]
      · rfl

end WiredOr

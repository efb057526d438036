/-
  Forests given by a parent function on `ℕ`, and values that flow down them.

  Every node has at most one parent, which has a smaller number (`Ordered`).
  A value flows from a root to the nodes below it: node `d` turns the value of
  its parent into its own by `F d`.

  * `Below par c d`: `d` is in the subtree of `c`;
  * `below_unique`: two flows below `c` that agree at `c` agree in its subtree;
  * `flow` is the flow from the roots, and `flow_unique` says that every
    assignment satisfying the equation of each node is `flow`;
  * `flow_inv`: what holds at the roots and is handed down holds of the flow.
-/
import Mathlib.Data.Nat.Basic
import Mathlib.Tactic.Common

namespace Forest

/-- Parents have smaller numbers than their children. -/
def Ordered (par : ℕ → Option ℕ) : Prop := ∀ d p, par d = some p → p < d

/-- The subtree of `c`. -/
inductive Below (par : ℕ → Option ℕ) (c : ℕ) : ℕ → Prop
  | refl : Below par c c
  | step {d p : ℕ} : par d = some p → Below par c p → Below par c d

variable {par : ℕ → Option ℕ} {c d k p : ℕ}

theorem Below.le (ho : Ordered par) (h : Below par c d) : c ≤ d := by
  induction h with
  | refl => exact le_rfl
  | step hp _ ih => exact Nat.le_trans ih (Nat.le_of_lt (ho _ _ hp))

theorem Below.child (hk : par k = some c) (h : Below par k d) : Below par c d := by
  induction h with
  | refl => exact .step hk .refl
  | step hp _ ih => exact .step hp ih

/-- The parent of a proper member of a subtree is in the subtree. -/
theorem Below.parent (h : Below par c d) (hne : d ≠ c) : ∃ p, par d = some p ∧ Below par c p := by
  cases h with
  | refl => exact absurd rfl hne
  | step hp hb => exact ⟨_, hp, hb⟩

theorem Below.of_parent (h : Below par c d) (hne : d ≠ c) (hp : par d = some p) :
    Below par c p := by
  obtain ⟨p', hp', hb⟩ := h.parent hne
  rw [hp] at hp'; cases hp'; exact hb

/-- A node is not in the subtree of a child of its own. -/
theorem not_below_child (ho : Ordered par) (hk : par k = some c) : ¬ Below par k c := fun h =>
  absurd (h.le ho) (by have := ho _ _ hk; omega)

/-- Proper members of the subtree of a child of `c` are not children of `c`. -/
theorem Below.parent_ne (ho : Ordered par) (hk : par k = some c) (h : Below par k d)
    (hne : d ≠ k) : par d ≠ some c := fun hd =>
  not_below_child ho hk (h.of_parent hne hd)

/-! ## Flows -/

section
variable {V : Type} {F : ℕ → V → V}

/-- `out` satisfies the equation of node `d`: its value is that of its parent,
    transformed. -/
def FlowsAt (par : ℕ → Option ℕ) (F : ℕ → V → V) (out : ℕ → V) (d : ℕ) : Prop :=
  ∀ p, par d = some p → out d = F d (out p)

theorem below_unique {out out' : ℕ → V} (hc : out c = out' c)
    (h : ∀ d, Below par c d → d ≠ c → FlowsAt par F out d)
    (h' : ∀ d, Below par c d → d ≠ c → FlowsAt par F out' d) :
    ∀ d, Below par c d → out d = out' d := by
  intro d hd
  induction hd with
  | refl => exact hc
  | @step d p hp hb ih =>
    by_cases hdc : d = c
    · rw [hdc]; exact hc
    · rw [h d (.step hp hb) hdc p hp, h' d (.step hp hb) hdc p hp, ih]

/-- The flow from the roots: a root `d` gets `F d (src d)`. -/
def flow (par : ℕ → Option ℕ) (F : ℕ → V → V) (src : ℕ → V) (d : ℕ) : V :=
  match par d with
  | none => F d (src d)
  | some p => if _h : p < d then F d (flow par F src p) else F d (src d)
termination_by d

theorem flow_root {src : ℕ → V} (h : par d = none) : flow par F src d = F d (src d) := by
  rw [flow, h]

theorem flow_child {src : ℕ → V} (ho : Ordered par) (h : par d = some p) :
    flow par F src d = F d (flow par F src p) := by
  rw [flow, h]; simp only [dif_pos (ho d p h)]

/-- An assignment that satisfies the equations of the nodes below `n` is the
    flow there. -/
theorem flow_unique (ho : Ordered par) {src : ℕ → V} {out : ℕ → V} {n : ℕ}
    (hroot : ∀ d < n, par d = none → out d = F d (src d))
    (hflow : ∀ d < n, FlowsAt par F out d) : ∀ d < n, out d = flow par F src d := by
  intro d
  induction d using Nat.strong_induction_on with
  | _ d ih =>
    intro hd
    cases hp : par d with
    | none => rw [flow_root hp, hroot d hd hp]
    | some p =>
      have hlt := ho d p hp
      rw [flow_child ho hp, hflow d hd p hp, ih p hlt (by omega)]

theorem flow_inv (ho : Ordered par) {src : ℕ → V} {I : ℕ → V → Prop} {n : ℕ}
    (hroot : ∀ d < n, par d = none → I d (F d (src d)))
    (hchild : ∀ d < n, ∀ p v, par d = some p → I p v → I d (F d v)) :
    ∀ d < n, I d (flow par F src d) := by
  intro d
  induction d using Nat.strong_induction_on with
  | _ d ih =>
    intro hd
    cases hp : par d with
    | none => rw [flow_root hp]; exact hroot d hd hp
    | some p =>
      have hlt := ho d p hp
      rw [flow_child ho hp]
      exact hchild d hd p _ hp (ih p hlt (by omega))

end

end Forest

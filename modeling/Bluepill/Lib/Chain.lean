/-
  Singly linked lists in a table of successors.

  `Linked next h l`: following `next` from the head `h` one meets the elements of `l`
  and then the end.  The list is determined by the table and the head, and an element
  occurs in it once; so a change of the table is seen by the list only at its elements.
  The changes that programs make keep a list linked: adding an element at the head, and
  taking one out (`push`, `unlink`).

  A program that walks a list with a pointer to where the next element is stored writes
  through that pointer.  In `Links`, with the head beside the table, such a place is the head
  (`none`) or the successor of an element; `Holds.set` says what list a write leaves.
-/
import Mathlib.Data.List.Nodup
import Mathlib.Logic.Function.Basic
import Mathlib.Tactic.Common

namespace Chain

variable {α : Type*} {next next' : α → Option α} {h : Option α} {l l' l₁ l₂ : List α} {a b p : α}

/-- The list `l` from the head `h` on. -/
inductive Linked (next : α → Option α) : Option α → List α → Prop
  | nil : Linked next none []
  | cons {a : α} {l : List α} (hl : Linked next (next a) l) : Linked next (some a) (a :: l)

namespace Linked

theorem nil_iff : Linked next h [] ↔ h = none := by
  constructor
  · rintro ⟨⟩
    rfl
  · rintro rfl
    exact .nil

theorem cons_iff : Linked next h (a :: l) ↔ h = some a ∧ Linked next (next a) l := by
  constructor
  · rintro ⟨⟩
    exact ⟨rfl, ‹_›⟩
  · rintro ⟨rfl, hl⟩
    exact .cons hl

/-- **The table and the head determine the list.** -/
theorem unique (hl : Linked next h l) (hl' : Linked next h l') : l = l' := by
  induction hl generalizing l' with
  | nil => cases hl'; rfl
  | cons _ ih =>
    cases hl' with
    | cons hl' => rw [ih hl']

/-- What comes behind an element. -/
theorem behind (l₁ : List α) (hl : Linked next h (l₁ ++ a :: l₂)) : Linked next (next a) l₂ := by
  induction l₁ generalizing h with
  | nil => exact (cons_iff.1 hl).2
  | cons b l₁ ih => exact ih (cons_iff.1 hl).2

theorem head_notMem (hl : Linked next (some a) (a :: l)) : a ∉ l := by
  intro ha
  obtain ⟨l₁, l₂, rfl⟩ := List.append_of_mem ha
  -- behind the second `a` comes the same list as behind the first
  have hsame := (cons_iff.1 hl).2.unique (behind (a :: l₁) hl)
  have hlength := congrArg List.length hsame
  simp at hlength
  omega

/-- **An element occurs once.** -/
theorem nodup (hl : Linked next h l) : l.Nodup := by
  induction hl with
  | nil => exact List.nodup_nil
  | cons hl ih => exact List.nodup_cons.2 ⟨(cons hl).head_notMem, ih⟩

/-- Tables that agree on a list. -/
theorem congr (hl : Linked next h l) (heq : ∀ a ∈ l, next' a = next a) : Linked next' h l := by
  induction hl with
  | nil => exact .nil
  | cons hl ih =>
    refine .cons ?_
    rw [heq _ List.mem_cons_self]
    exact ih fun b hb => heq b (List.mem_cons_of_mem _ hb)

variable [DecidableEq α]

/-- A change elsewhere. -/
theorem update (hl : Linked next h l) (ha : a ∉ l) (x : Option α) :
    Linked (Function.update next a x) h l := by
  refine hl.congr fun b hb => Function.update_of_ne ?_ _ _
  rintro rfl
  exact ha hb

/-- A new element at the head. -/
theorem push (hl : Linked next h l) (ha : a ∉ l) : Linked (Function.update next a h) (some a) (a :: l) := by
  refine .cons ?_
  rw [Function.update_self]
  exact hl.update ha h

/-- The element behind the first taken out. -/
theorem unlink (hl : Linked next (some p) (p :: a :: l)) :
    Linked (Function.update next p (next a)) (some p) (p :: l) := by
  have hp := hl.head_notMem
  refine .cons ?_
  rw [Function.update_self]
  exact (behind [p] hl).update (fun h => hp (List.mem_cons_of_mem a h)) (next a)

/-- The rest of a list, from `a` on, replaced. -/
theorem replace {x : Option α} (hl : Linked next h (l₁ ++ a :: l₂)) (ha : a ∉ l₁)
    (hl' : Linked (Function.update next a x) (some a) l) : Linked (Function.update next a x) h (l₁ ++ l) := by
  induction l₁ generalizing h with
  | nil =>
    rw [(cons_iff.1 hl).1]
    exact hl'
  | cons b l₁ ih =>
    rw [List.mem_cons, not_or] at ha
    obtain ⟨rfl, hrest⟩ := cons_iff.1 hl
    refine .cons ?_
    rw [Function.update_of_ne (Ne.symm ha.1)]
    exact ih hrest ha.2

end Linked

/-! ## Places -/

/-- The head of a list, and the table. -/
structure Links (α : Type*) where
  head : Option α
  next : α → Option α

namespace Links

variable {s : Links α} {x : Option α}

/-- What is stored at a place. -/
def get (s : Links α) : Option α → Option α
  | none => s.head
  | some a => s.next a

/-- A write through a place. -/
def set [DecidableEq α] (s : Links α) (p x : Option α) : Links α :=
  match p with
  | none => { s with head := x }
  | some a => { s with next := Function.update s.next a x }

def Holds (s : Links α) (l : List α) : Prop := Linked s.next s.head l

/-- The place behind `l₁` stores the rest of the list. -/
theorem Holds.get (h : s.Holds (l₁ ++ l₂)) : Linked s.next (s.get l₁.getLast?) l₂ := by
  rcases l₁.eq_nil_or_concat' with rfl | ⟨l, a, rfl⟩
  · exact h
  · rw [List.getLast?_concat]
    rw [Holds, List.append_assoc] at h
    exact h.behind l

/-- **A write behind `l₁`** replaces the rest of the list. -/
theorem Holds.set [DecidableEq α] (h : s.Holds (l₁ ++ l₂)) (hx : Linked s.next x l) (hl : ∀ a ∈ l₁, a ∉ l) :
    (s.set l₁.getLast? x).Holds (l₁ ++ l) := by
  rcases l₁.eq_nil_or_concat' with rfl | ⟨k, a, rfl⟩
  · exact hx
  · rw [List.getLast?_concat]
    rw [Holds, List.append_assoc] at h ⊢
    have hk : a ∉ k := fun ha => List.disjoint_of_nodup_append h.nodup ha List.mem_cons_self
    have hlast : Linked (Function.update s.next a x) (some a) (a :: l) := by
      refine .cons ?_
      rw [Function.update_self]
      exact hx.update (hl a (by simp)) x
    exact h.replace hk hlast

end Links

end Chain

/-
  The interrupts that have a vector.

  The GIC numbers exceptions from `0` to `15` and external interrupts from `32` on; the CPU
  numbers the latter from `16` on.  The numbers between are those of a GIC in another machine,
  and `0` is none for the CPU.  `Vectored`: no such interrupt is ever taken, unless the software
  trigger makes interrupt `0` pending.
-/
import Bluepill.Nvic.Active

namespace Bluepill

open Machine

namespace Gic

variable {s t : Gic} {irq : ℕ}

/-- An interrupt that the CPU has a vector for. -/
def HasVector (irq : ℕ) : Prop := irq ≠ 0 ∧ (irq < GIC_NR_SGIS ∨ GIC_INTERNAL ≤ irq)

theorem HasVector.fromVector (h : HasVector irq) : Nvic.fromVector (Nvic.toVector irq) = irq := by
  have h' : irq ≠ 0 ∧ (irq < 16 ∨ 32 ≤ irq) := h
  unfold Nvic.fromVector Nvic.toVector
  split_ifs <;> omega

theorem HasVector.toVector_ne_zero (h : HasVector irq) : Nvic.toVector irq ≠ 0 := by
  have h' : irq ≠ 0 ∧ (irq < 16 ∨ 32 ≤ irq) := h
  unfold Nvic.toVector
  split_ifs <;> omega

/-- Interrupt `0` is not pending, those between the exceptions and the external ones are not enabled, and
    the one that would be acknowledged has a vector. -/
structure Vectored (s : Gic) : Prop where
  level : (s.irqState 0).level = false
  pending : (s.irqState 0).pending = false
  enabled : ∀ irq, (s.irqState irq).enabled = true → irq < GIC_NR_SGIS ∨ GIC_INTERNAL ≤ irq
  current : s.currentPending ≠ NONE → HasVector s.currentPending

/-- The choice of the interrupt to acknowledge keeps to those that have a vector. -/
theorem vectored_of (hlevel : (t.irqState 0).level = false) (hpending : (t.irqState 0).pending = false)
    (henabled : ∀ irq, (t.irqState irq).enabled = true → irq < GIC_NR_SGIS ∨ GIC_INTERNAL ≤ irq)
    (hon : t.On) (hs : s.Vectored) (hcur : t.currentPending = s.currentPending ∨ t.Settled) : t.Vectored := by
  refine ⟨hlevel, hpending, henabled, fun hne => ?_⟩
  rcases hcur with hcur | hsettled
  · rw [hcur] at hne ⊢
    exact hs.current hne
  · rcases hsettled.cases hon with ⟨hfirst, -⟩ | ⟨-, hnone, -⟩
    · have hready := hfirst.sat
      rw [ready, Bool.and_eq_true] at hready
      refine ⟨fun h0 => ?_, henabled _ hready.1⟩
      rw [h0, hpending] at hready
      cases hready.2
    · exact absurd hnone hne

/-- An action that does not make interrupt `0` pending. -/
def Act.vectored : Act → Bool
  | .pend irq => irq ≠ 0
  | _ => true

/-- The interrupt to acknowledge stays, or is chosen anew. -/
theorem current_act {a : Act} (ht : act s a = .ok t) (hreset : a ≠ .reset) :
    t.currentPending = s.currentPending ∨ t.Settled := by
  cases a with
  | pend n =>
    cases ht
    unfold setPendingPrivate
    split
    · exact .inl rfl
    · exact .inr (settled_update _)
  | line n level =>
    cases ht
    unfold setIrq
    dsimp only
    split
    · exact .inl rfl
    · exact .inr (settled_update _)
  | acknowledge =>
    obtain ⟨-, -, rfl⟩ := act_acknowledge ht
    exact .inr (settled_update _)
  | complete n =>
    rcases completeIrq_cases ht with ⟨-, rfl⟩ | ⟨-, -, -, u, hunlink, hor⟩ | ⟨-, -, -, rfl⟩
    · exact .inl rfl
    · obtain ⟨f, rfl⟩ := unlinkFrom_eq hunlink
      rcases hor with rfl | ⟨rfl, hsame⟩
      · exact .inr (settled_update _)
      · rw [hsame]
        exact .inl rfl
    · exact .inr (settled_update _)
  | setEnabled n =>
    cases ht
    rw [setEnabled_eq]
    exact .inl rfl
  | clearEnabled n | setPending n | clearPending n | configure n model edgeTrigger | enable n on =>
    cases ht
    exact .inl rfl
  | setPriority n val =>
    cases ht
    unfold setPriority
    split <;> exact .inl rfl
  | update =>
    cases ht
    exact .inr (settled_update _)
  | reset => exact absurd rfl hreset

theorem effect_pending_zero {a : Act} {i : GicIrqState} (hplain : a.plain = true) (hvec : a.vectored = true)
    (h : i.pending = false) : (a.effect 0 i).pending = false := by
  have hne : ∀ n, GIC_INTERNAL ≤ n → ¬ 0 = n := by
    rintro n hn rfl
    exact absurd hn (by decide)
  cases a with
  | pend n =>
    have hn : ¬ 0 = n := fun h0 => by simp [Act.vectored, ← h0] at hvec
    rwa [Act.effect, if_neg hn]
  | line n level =>
    have hn : ¬ (0 = n + GIC_INTERNAL ∧ level ≠ i.level) := fun h0 => hne _ (Nat.le_add_left _ _) h0.1
    rwa [Act.effect, if_neg hn]
  | setPending n | setEnabled n =>
    have hn : ¬ 0 = n := hne n (by simpa [Act.plain] using hplain)
    rwa [Act.effect, if_neg hn]
  | clearPending n =>
    simp only [Act.effect]
    split
    · rfl
    · exact h
  | clearEnabled n | configure n model edgeTrigger | enable n on =>
    simp only [Act.effect]
    split <;> exact h
  | setPriority n val | update | acknowledge | complete n | reset => exact h

theorem effect_enabled {a : Act} {i : GicIrqState} (hplain : a.plain = true)
    (h : (a.effect irq i).enabled = true) :
    i.enabled = true ∨ irq < GIC_NR_SGIS ∨ GIC_INTERNAL ≤ irq := by
  cases a with
  | setEnabled n =>
    simp only [Act.effect] at h
    split at h
    · rename_i hirq
      subst hirq
      exact .inr (.inr (by simpa [Act.plain] using hplain))
    · exact .inl h
  | enable n on =>
    simp only [Act.effect] at h
    split at h
    · rename_i hirq
      subst hirq
      exact .inr (.inl (by simpa [Act.plain] using hplain))
    · exact .inl h
  | pend n | line n level | setPending n | clearEnabled n | clearPending n | configure n model edgeTrigger =>
    simp only [Act.effect] at h
    split_ifs at h <;> exact .inl h
  | setPriority n val | update | acknowledge | complete n | reset => exact .inl h

theorem Vectored.plain {a : Act} (h : s.Vectored) (hon : s.On) (hplain : a.plain = true) (hvec : a.vectored = true)
    (ht : act s a = .ok t) : t.Vectored := by
  have heffect := irqState_act hplain ht
  refine vectored_of ?_ ?_ ?_ (hon.act ht) h (current_act ht ?_)
  · rw [heffect, ← Bool.not_eq_true]
    intro hlevel
    rcases Act.effect_level hlevel with hlevel | ⟨n, -, h0⟩
    · rw [h.level] at hlevel
      cases hlevel
    · have hpos : 0 < n + GIC_INTERNAL := Nat.lt_add_left n (by decide)
      exact absurd h0 hpos.ne
  · rw [heffect]
    exact effect_pending_zero hplain hvec h.pending
  · intro irq henabled
    rw [heffect] at henabled
    exact (effect_enabled hplain henabled).elim (h.enabled irq) id
  · rintro rfl
    cases hplain

theorem Vectored.run {acts : List Act} (h : s.Vectored) (hon : s.On)
    (hacts : ∀ a ∈ acts, a.plain = true ∧ a.vectored = true) (ht : run act s acts = .ok t) : t.Vectored := by
  refine (history_inv (P := fun _ (s : Gic) => s.On ∧ s.Vectored)
    (C := fun _ (a : Act) => a.plain = true ∧ a.vectored = true) ?_ ⟨hon, h⟩ ?_ ht).2
  · rintro - s a t ⟨hon, hs⟩ ⟨hplain, hvec⟩ ht
    exact ⟨hon.act ht, hs.plain hon hplain hvec ht⟩
  · exact fun s a hsa => hacts a hsa.mem

theorem Vectored.acknowledge (h : s.Vectored) (hon : s.On) (ht : act s .acknowledge = .ok t) : t.Vectored := by
  have hstate := irqState_acknowledge ht
  refine vectored_of ?_ ?_ ?_ (hon.act ht) h (current_act ht (by simp))
  · rw [hstate]
    split <;> exact h.level
  · rw [hstate]
    split
    · rfl
    · exact h.pending
  · intro irq henabled
    rw [hstate] at henabled
    exact h.enabled irq (by split at henabled <;> exact henabled)

theorem Vectored.complete {n : ℕ} (h : s.Vectored) (hon : s.On) (ht : s.completeIrq n = .ok t) : t.Vectored := by
  have hact : act s (.complete n) = .ok t := ht
  rcases irqState_complete ht with ⟨-, rfl⟩ | hstate
  · exact h
  refine vectored_of ?_ ?_ ?_ (hon.act hact) h (current_act hact (by simp))
  · rw [hstate]
    split <;> exact h.level
  · rw [hstate]
    split
    · simp [raised, h.level, h.pending]
    · exact h.pending
  · intro irq henabled
    rw [hstate] at henabled
    exact h.enabled irq (by split at henabled <;> exact henabled)

end Gic

end Bluepill

/-
  Requests by software, and the line without an output.

  A write to `SWIER` requests its lines, but only those whose bit it sets: a bit that is set
  already requests nothing.  A bit stays set while its line is pending, so that loses no
  request, unless the line was masked at the time of the first one: then the bit is set and
  the line is not pending.  Nothing is lost exactly as long as no such line gets unmasked
  (`honors_iff`).

  Line 19 has an enable bit and no output.  It is never pending, so the assertion of
  `stm32_exti_change_EXTI_PR_bit` fails exactly when it is requested while unmasked
  (`assertion_iff`).
-/
import Bluepill.Exti.Lines

namespace Bluepill

/-! ## Requests -/

namespace Line

/-- A line that is unmasked and requested is pending. -/
def Honest (x : Line) : Prop := x.IMR = true → x.SWIER = true → x.PR = true

theorem Honest.changePr {x : Line} (h : x.Honest) (b : Bool) : (x.changePr b).Honest := by
  unfold Line.changePr
  split
  · exact h
  · intro _ hs
    exact (Bool.and_eq_true_iff.1 hs).2

theorem Honest.trigger {x : Line} (h : x.Honest) : x.trigger.Honest := by
  unfold Line.trigger
  split
  · exact h.changePr true
  · exact h

theorem Honest.setTsr {x : Line} (h : x.Honest) (r : Stm32Exti.Tsr) (b : Bool) : (x.setTsr r b).Honest := by
  cases r <;> exact h

theorem Honest.updateTsr {x : Line} (h : x.Honest) (r : Stm32Exti.Tsr) (b : Bool) :
    (x.updateTsr r b).Honest := by
  unfold Line.updateTsr
  split
  · exact h.setTsr r b
  · exact (h.changePr false).setTsr r b

/-- A request on an unmasked line makes it pending. -/
theorem trigger_PR {x : Line} (h : x.IMR = true) : x.trigger.PR = true := by
  rw [Line.trigger, if_pos h, Line.changePr]
  split
  · assumption
  · rfl

theorem trigger_IMR (x : Line) : x.trigger.IMR = x.IMR := by
  unfold Line.trigger Line.changePr
  split
  · split <;> rfl
  · rfl

theorem Honest.updateSwier {x : Line} (h : x.Honest) (b : Bool) : (x.updateSwier b).Honest := by
  unfold Line.updateSwier
  split
  · intro hm _
    rw [trigger_IMR] at hm
    exact trigger_PR hm
  · exact h

/-- Only a write to `IMR` can lose a request. -/
theorem Honest.write {x : Line} (h : x.Honest) {offset : ℕ} (ho : offset ≠ 0x00) (b : Bool) :
    (x.write offset b).Honest := by
  unfold Line.write
  split
  · exact absurd rfl ho
  · exact h.updateTsr .rising b
  · exact h.updateTsr .falling b
  · exact h.updateSwier b
  · split
    · exact h.changePr false
    · exact h
  · exact h

theorem Honest.edge {x : Line} (h : x.Honest) (level : Bool) : (x.edge level).Honest := by
  unfold Line.edge
  split
  · exact h.trigger
  · exact h

end Line

namespace Stm32Exti

variable {s t : Stm32Exti} {n pos : ℕ} {b : Bool}

/-- A request of an unmasked line that is not pending makes it pending. -/
def Honors (s : Stm32Exti) : Prop :=
  ∀ n ≤ 18, s.IMR.getLsbD n = true → s.PR.getLsbD n = false → ∀ (value : BitVec 64) (t : Stm32Exti),
    value.getLsbD n = true → s.step (.write 0x10 value 4) = .ok t → t.PR.getLsbD n = true

/-- A write that requests nothing but what is requested already. -/
theorem swierWrite_again (h : s.SWIER.getLsbD n = true) :
    s.step (.write 0x10 (1#64 <<< n) 4) = .ok s := by
  have hloop : Machine.Post (· = s) (fun _ => False) ((List.range EXTI_LINE_COUNT).foldlM
      (fun s pos => s.swierBit pos (extract32 ((1#64 <<< n).setWidth 32) pos 1)) s) := by
    refine Machine.Post.foldlM (fun pos hpos t ht => ?_) rfl
    have hpos : pos < 20 := List.mem_range.1 hpos
    subst ht
    rw [extract_value _ hpos, ← BitVec.twoPow_eq, BitVec.getLsbD_twoPow, swierBit,
      Word.bitSet_eq _ (show pos < 32 by omega)]
    by_cases hp : n = pos
    · subst hp
      rw [h]
      split <;> exact rfl
    · rw [if_neg (by simp [hp])]
      exact rfl
  obtain ⟨t, ht, rfl⟩ := Machine.post_ok.1 hloop
  exact ht

theorem honors_iff_honest : s.Honors ↔ ∀ n ≤ 18, (s.line n).Honest := by
  constructor
  · intro h n hn hm hs
    by_contra hp
    rw [Bool.not_eq_true] at hp
    have hbit : (1#64 <<< n).getLsbD n = true := by
      rw [← BitVec.twoPow_eq, BitVec.getLsbD_twoPow]
      simp [show n < 64 by omega]
    have hset := h n hn hm hp _ s hbit (swierWrite_again hs)
    exact absurd (hset.symm.trans hp) (by decide)
  · intro h n hn hm hp value t hv ht
    have hline : t.line n = (s.line n).updateSwier (value.getLsbD n) := step_line (by omega) ht
    have hs : s.SWIER.getLsbD n = false := by
      by_contra hs
      exact absurd ((h n hn hm (Bool.eq_true_of_not_eq_false hs)).symm.trans hp) (by decide)
    have hrequest : (value.getLsbD n && !(s.line n).SWIER) = true := by
      rw [hv, show (s.line n).SWIER = false from hs]
      rfl
    rw [Line.updateSwier, if_pos hrequest] at hline
    exact (congrArg Line.PR hline).trans (Line.trigger_PR hm)

/-- The operation unmasks no line that is requested and not pending. -/
def KeepsRequests (s : Stm32Exti) : Op → Prop
  | .write 0x00 value _ => ∀ n ≤ 18, value.getLsbD n = true → s.SWIER.getLsbD n = true →
      s.PR.getLsbD n = true
  | _ => True

instance (s : Stm32Exti) : (o : Op) → Decidable (s.KeepsRequests o)
  | .write 0x00 value _ => inferInstanceAs (Decidable (∀ n ≤ 18, value.getLsbD n = true →
      s.SWIER.getLsbD n = true → s.PR.getLsbD n = true))
  | .write (_ + 1) _ _ => isTrue trivial
  | .gpioIn _ _ => isTrue trivial
  | .reset => isTrue trivial

theorem step_honors {o : Op} (h : s.Honors) (ho : s.step o = .ok t) : t.Honors ↔ s.KeepsRequests o := by
  rw [honors_iff_honest] at h ⊢
  have hline : ∀ n ≤ 18, t.line n = (s.line n).step n o := fun n hn => step_line (by omega) ho
  cases o with
  | write offset value size =>
    by_cases h0 : offset = 0x00
    · subst h0
      refine forall₂_congr fun n hn => ?_
      rw [hline n hn]
      exact Iff.rfl
    · have hkeeps : s.KeepsRequests (.write offset value size) := by
        cases offset with
        | zero => exact absurd rfl h0
        | succ offset => trivial
      refine iff_of_true (fun n hn => ?_) hkeeps
      rw [hline n hn]
      exact (h n hn).write h0 _
  | gpioIn pin level =>
    refine iff_of_true (fun n hn => ?_) trivial
    rw [hline n hn, Line.step]
    split
    · exact (h n hn).edge level
    · exact h n hn
  | reset =>
    refine iff_of_true (fun n hn => ?_) trivial
    rw [hline n hn]
    intro hm
    cases hm

end Stm32Exti

open Stm32Exti

/-- **When no request by software is lost throughout a run.** -/
theorem honors_iff {l : List Stm32Exti.Op} {u : Stm32Exti}
    (h : Machine.run Stm32Exti.step Stm32Exti.init l = .ok u) :
    (∀ t, Machine.Visits Stm32Exti.step Stm32Exti.init l t → t.Honors) ↔
      ∀ t o, Machine.Takes Stm32Exti.step Stm32Exti.init l t o → t.KeepsRequests o := by
  refine Machine.visits_iff_takes (I := fun _ => True) (fun _ _ _ _ _ => trivial) ?_ trivial ?_ h
  · intro t o u _ ht hu
    exact step_honors ht hu
  · rw [honors_iff_honest]
    intro n _ hm _
    simp [line, Stm32Exti.init] at hm

/-- Line 0 unmasked, requested, served and requested again. -/
theorem honors_iff_served : ∃ u, Machine.run Stm32Exti.step Stm32Exti.init
    [.write 0x00 0x1 4, .write 0x10 0x1 4, .write 0x14 0x1 4, .write 0x10 0x1 4] = .ok u ∧
    ∀ t, Machine.Visits Stm32Exti.step Stm32Exti.init
      [.write 0x00 0x1 4, .write 0x10 0x1 4, .write 0x14 0x1 4, .write 0x10 0x1 4] t → t.Honors :=
  ⟨_, rfl, (honors_iff rfl).2 (Machine.Meets.takes (by decide +kernel))⟩

/-- Line 0 requested while it is masked, and again when it is not: it is not pending. -/
theorem not_honors_masked : ∃ t u, Machine.run Stm32Exti.step Stm32Exti.init
    [.write 0x10 0x1 4, .write 0x00 0x1 4] = .ok t ∧ t.step (.write 0x10 0x1 4) = .ok u ∧
    t.IMR = 1 ∧ t.PR = 0 ∧ u.PR = 0 ∧ ¬ t.Honors := by
  refine ⟨_, _, rfl, rfl, rfl, rfl, rfl, fun h => ?_⟩
  exact absurd (h 0 (by decide) rfl rfl 0x1 _ rfl rfl) (by decide)

/-! ## The line without an output -/

namespace Stm32Exti

variable {s t : Stm32Exti} {pos : ℕ} {b : Bool}

/-- The operation is a write of four bytes, an edge of a pin or a reset. -/
def Op.Valid : Op → Prop
  | .write _ _ size => size = 4
  | .gpioIn pin _ => pin < 16
  | .reset => True

/-- The operation requests line 19 while it is unmasked. -/
def RequestsLast (s : Stm32Exti) : Op → Prop
  | .write 0x10 value _ =>
    value.getLsbD 19 = true ∧ s.SWIER.getLsbD 19 = false ∧ s.IMR.getLsbD 19 = true
  | _ => False

/-- Only line 19 has no output to change. -/
theorem changePrBit_post (h : s.Wf) (hpos : pos < 20) (b : Bool) :
    Machine.Post (fun t => t.Wf ∧ ¬ (pos = 19 ∧ b = true))
      (fun e => e = .assertion ∧ pos = 19 ∧ b = true) (s.changePrBit pos (bit b)) := by
  have hlast : irqOf pos = none → pos = 19 := by
    have : ∀ pos < 20, irqOf pos = none → pos = 19 := by decide
    exact this pos hpos
  cases ho : s.changePrBit pos (bit b) with
  | ok t =>
    refine ⟨(changePrBit_spec h ho).wf, ?_⟩
    rintro ⟨rfl, rfl⟩
    obtain ⟨-, ⟨hb, -⟩ | ⟨-, i, hi, -⟩⟩ := changePrBit_ok ho
    · exact absurd ((h.pr 19 le_rfl).symm.trans hb) (by decide)
    · cases hi
  | error e =>
    have hbit : bit b = 0 ∨ bit b = 1 := by cases b <;> decide
    rw [changePrBit, assert_of hbit, Machine.ok_bind,
      assert_of (show pos < EXTI_LINE_COUNT from hpos), Machine.ok_bind] at ho
    have hold : extract32 s.PR pos 1 = bit (s.PR.getLsbD pos) := Word.extract_one s.PR (by omega)
    dsimp only at ho
    rw [hold] at ho
    split at ho
    · rename_i hne
      cases hi : irqOf pos with
      | some i =>
        rw [hi] at ho
        cases ho
      | none =>
        rw [hi] at ho
        cases ho
        have h19 := hlast hi
        refine ⟨rfl, h19, ?_⟩
        rw [bit_ne_bit, h.pr pos (by omega)] at hne
        simpa using hne.symm
    · cases ho

/-- A line can always be cleared. -/
theorem clear_post (h : s.Wf) (hpos : pos < 20) :
    Machine.Post Wf (fun _ => False) (s.changePrBit pos 0) :=
  (changePrBit_post h hpos false).mono (fun _ ht => ht.1) fun _ he => absurd he.2.2 (by decide)

theorem trigger_post (h : s.Wf) (hpos : pos < 20) :
    Machine.Post (fun t => t.Wf ∧ ¬ (pos = 19 ∧ s.IMR.getLsbD pos = true))
      (fun e => e = .assertion ∧ pos = 19 ∧ s.IMR.getLsbD pos = true) (s.trigger pos) := by
  rw [trigger, Word.bitSet_eq _ (show pos < 32 by omega)]
  split
  · rename_i hm
    refine (changePrBit_post h hpos true).mono (fun t ht => ⟨ht.1, fun hn => ht.2 ⟨hn.1, rfl⟩⟩) ?_
    exact fun e he => ⟨he.1, he.2.1, hm⟩
  · rename_i hm
    exact ⟨h, fun hn => hm hn.2⟩

theorem prBit_post (h : s.Wf) (hpos : pos < 20) (b : Bool) :
    Machine.Post Wf (fun _ => False) (s.prBit pos (bit b)) := by
  unfold prBit
  split
  · exact clear_post h hpos
  · exact h

theorem updateTsrBit_post (h : s.Wf) (hpos : pos < 20) (r : Tsr) (b : Bool) :
    Machine.Post Wf (fun _ => False) (s.updateTsrBit r pos (bit b)) := by
  have hbit : bit b = 0 ∨ bit b = 1 := by cases b <;> decide
  have hset : ∀ (u : Stm32Exti) (v : BitVec 32), u.Wf → (u.setTsr r v).Wf := by
    intro u v hu
    cases r <;> exact ⟨hu.pr, hu.irq⟩
  rw [updateTsrBit, assert_of hbit, Machine.ok_bind, assert_of (show pos < EXTI_LINE_COUNT from hpos),
    Machine.ok_bind]
  dsimp only
  split
  · exact (clear_post h hpos).bind fun u _ hu => hset u _ hu
  · exact hset s _ h

theorem swierBit_post (h : s.Wf) (hpos : pos < 20) (b : Bool) :
    Machine.Post
      (fun t => t.Wf ∧ ¬ (pos = 19 ∧ b = true ∧ s.SWIER.getLsbD pos = false ∧ s.IMR.getLsbD pos = true))
      (fun e => e = .assertion ∧ pos = 19 ∧ b = true ∧ s.SWIER.getLsbD pos = false ∧
        s.IMR.getLsbD pos = true) (s.swierBit pos (bit b)) := by
  rw [swierBit, Word.bitSet_eq _ (show pos < 32 by omega)]
  split
  · rename_i hb
    rw [bit_eq_one] at hb
    split
    · rename_i hs
      refine Machine.Post.mono
        (trigger_post (s := { s with SWIER := s.SWIER ||| (1#32 <<< pos) }) ⟨h.pr, h.irq⟩ hpos) ?_ ?_
      · exact fun t ht => ⟨ht.1, fun hn => ht.2 ⟨hn.1, hn.2.2.2⟩⟩
      · exact fun e he => ⟨he.1, he.2.1, hb, hs, he.2.2⟩
    · rename_i hs
      exact ⟨h, fun hn => hs hn.2.2.1⟩
  · rename_i hb
    exact ⟨h, fun hn => hb (bit_eq_one.2 hn.2.1)⟩

/-- Line 19 comes last, and finds its bits as they were. -/
theorem swierWrite_post (h : s.Wf) (value : BitVec 64) (size : ℕ) :
    Machine.Post (fun t => t.Wf ∧ ¬ s.RequestsLast (.write 0x10 value size))
      (fun e => e = .assertion ∧ s.RequestsLast (.write 0x10 value size))
      ((List.range EXTI_LINE_COUNT).foldlM
        (fun s pos => s.swierBit pos (extract32 (value.setWidth 32) pos 1)) s) := by
  have hrange : List.range EXTI_LINE_COUNT = List.range 19 ++ [19] := rfl
  rw [hrange, List.foldlM_append]
  refine Machine.Post.bind (R := fun t => t.Wf ∧ t.line 19 = s.line 19) ?_ fun u _ ⟨hu, hline⟩ => ?_
  · refine Machine.Post.foldlM (fun pos hpos t ⟨ht, hline⟩ => ?_) ⟨h, rfl⟩
    have hpos : pos < 19 := List.mem_range.1 hpos
    rw [extract_value value (by omega)]
    cases ho : t.swierBit pos (bit (value.getLsbD pos)) with
    | ok u =>
      have hpost := swierBit_post ht (show pos < 20 by omega) (value.getLsbD pos)
      rw [ho] at hpost
      refine ⟨hpost.1, ?_⟩
      rw [swierBit_line (by omega) ho, if_neg (by omega), hline]
    | error e =>
      have hpost := swierBit_post ht (show pos < 20 by omega) (value.getLsbD pos)
      rw [ho] at hpost
      exact absurd hpost.2.1 (by omega)
  · have hSWIER : u.SWIER.getLsbD 19 = s.SWIER.getLsbD 19 := congrArg Line.SWIER hline
    have hIMR : u.IMR.getLsbD 19 = s.IMR.getLsbD 19 := congrArg Line.IMR hline
    rw [List.foldlM_cons, extract_value value (by decide)]
    refine Machine.Post.bind (R := fun t : Stm32Exti => t.Wf ∧ ¬ s.RequestsLast (.write 0x10 value size))
      ?_ fun t _ ht => show Machine.Post _ _ (.ok t) from ht
    refine (swierBit_post hu (show 19 < 20 by decide) (value.getLsbD 19)).mono (fun t ht => ?_)
      fun e he => ?_
    · rw [hSWIER, hIMR] at ht
      exact ⟨ht.1, fun hn => ht.2 ⟨rfl, hn⟩⟩
    · rw [hSWIER, hIMR] at he
      exact ⟨he.1, he.2.2⟩

/-- **The operations that fail an assertion.** -/
theorem step_post {o : Op} (h : s.Wf) (ho : o.Valid) :
    Machine.Post (fun t => t.Wf ∧ ¬ s.RequestsLast o) (fun e => e = .assertion ∧ s.RequestsLast o)
      (s.step o) := by
  cases o with
  | write offset value size =>
    obtain rfl : size = 4 := ho
    show Machine.Post _ _ (s.write offset value 4)
    unfold write
    rw [assert_of (rfl : 4 = 4), Machine.ok_bind]
    by_cases h10 : offset = 0x10
    · subst h10
      exact swierWrite_post h value 4
    have hlast : ¬ s.RequestsLast (.write offset value 4) := by
      unfold RequestsLast
      split
      · exact absurd (by simp_all) h10
      · exact id
    -- the other registers only clear lines
    have hother : ∀ {x : Except Fault Stm32Exti}, Machine.Post Wf (fun _ => False) x →
        Machine.Post (fun t => t.Wf ∧ ¬ s.RequestsLast (.write offset value 4))
          (fun e => e = .assertion ∧ s.RequestsLast (.write offset value 4)) x := by
      intro x hx
      exact hx.mono (fun t ht => ⟨ht, hlast⟩) fun _ => False.elim
    apply hother
    split
    · split
      · exact ⟨h.pr, h.irq⟩
      · exact h
    · refine Machine.Post.foldlM (fun pos hpos t ht => ?_) h
      have hpos : pos < 20 := List.mem_range.1 hpos
      dsimp only
      rw [extract_value value hpos]
      split
      · exact updateTsrBit_post ht hpos .rising _
      · exact updateTsrBit_post ht hpos .falling _
      · exact absurd rfl h10
      · exact prBit_post ht hpos _
      · exact ht
  | gpioIn pin level =>
    have hpin : pin < 16 := ho
    show Machine.Post _ _ (s.gpioInHandler pin level)
    rw [gpioInHandler, assert_of hpin, Machine.ok_bind]
    split
    · refine (trigger_post h (show pin < 20 by omega)).mono (fun t ht => ⟨ht.1, id⟩) fun e he => ?_
      exact absurd he.2.1 (by omega)
    · exact ⟨h, id⟩
  | reset => exact ⟨Wf.step (o := .reset) h rfl, id⟩

theorem step_invalid {o : Op} (ho : ¬ o.Valid) : s.step o = .error .assertion := by
  cases o with
  | write offset value size =>
    show (assert (size = 4) >>= _) = _
    rw [assert, if_neg (show ¬ size = 4 from ho), Machine.error_bind]
  | gpioIn pin level =>
    show (assert (pin < 16) >>= _) = _
    rw [assert, if_neg (show ¬ pin < 16 from ho), Machine.error_bind]
  | reset => exact absurd trivial ho

instance : (o : Op) → Decidable o.Valid
  | .write _ _ size => inferInstanceAs (Decidable (size = 4))
  | .gpioIn pin _ => inferInstanceAs (Decidable (pin < 16))
  | .reset => isTrue trivial

end Stm32Exti

/-- **When no assertion fails in a run.** -/
theorem assertion_iff {l : List Stm32Exti.Op} (hl : ∀ o ∈ l, o.Valid) :
    Machine.run Stm32Exti.step Stm32Exti.init l ≠ .error .assertion ↔
      ∀ t o, Machine.Takes Stm32Exti.step Stm32Exti.init l t o → ¬ t.RequestsLast o := by
  have hinit : Stm32Exti.init.Wf := ⟨fun _ _ => BitVec.getLsbD_zero, fun _ _ => rfl⟩
  have hC : ∀ (t : Stm32Exti) o, t.Wf →
      (t.step o = .error .assertion ↔ ¬ (o.Valid ∧ ¬ t.RequestsLast o)) := by
    intro t o ht
    by_cases ho : o.Valid
    · have hpost := step_post ht ho
      cases hu : t.step o with
      | ok u =>
        rw [hu] at hpost
        exact iff_of_false (nomatch ·) (not_not_intro ⟨ho, hpost.2⟩)
      | error e =>
        rw [hu] at hpost
        obtain ⟨rfl, hlast⟩ := hpost
        exact iff_of_true rfl fun hn => hn.2 hlast
    · exact iff_of_true (step_invalid ho) fun hn => ho hn.1
  rw [Machine.run_ne_error_iff (I := Stm32Exti.Wf) (C := fun t o => o.Valid ∧ ¬ t.RequestsLast o)
    (fun _ _ _ ht hu => ht.step hu) hC hinit]
  exact forall₃_congr fun t o ht => and_iff_right (hl o ht.mem)

/-- All lines are requested, and the first nineteen of them are unmasked. -/
theorem assertion_iff_masked : Machine.run Stm32Exti.step Stm32Exti.init
    [.write 0x00 0x7ffff 4, .write 0x10 0xfffff 4] ≠ .error .assertion := by
  refine (assertion_iff (by decide)).2 fun t o ht => ?_
  rcases Machine.takes_cons ht with ⟨-, rfl⟩ | ⟨t₁, ht₁, ht⟩
  · exact id
  cases ht₁
  rcases Machine.takes_cons ht with ⟨rfl, rfl⟩ | ⟨t₂, -, l₁, l₂, hl, -⟩
  · exact fun h => absurd h.2.2 (by decide)
  · simp at hl

/-- Line 19 is unmasked and requested. -/
theorem not_assertion_line19 : Machine.run Stm32Exti.step Stm32Exti.init
    [.write 0x00 0x80000 4, .write 0x10 0x80000 4] = .error .assertion := rfl

end Bluepill

/-
  The circular mode of the DMA controller.

  One channel at a time can be in circular mode: `chanCircularMode` has its
  number, and a timer moves the items of the transfer one by one.  The two belong
  together (`Consistent`): a timer that expires needs a channel, and a channel
  that stays recorded keeps all channels from circular mode.  Two operations can
  take them apart (`KeepsCircular`): a reset, which forgets the channel and lets
  the timer run, and an expiry after which the channel is not enabled.
-/
import Bluepill.Dma.Copy

namespace Bluepill

open Dma

namespace DmaStream

/-- The channel is enabled after the next item: it is now, and this is not the
    last item or there is no last item; or it gets enabled again. -/
def Continues (st : DmaStream) : Prop :=
  if st.has DMA_CCR_EN then st.ndtr ≠ 1 ∨ st.has DMA_CCR_CIRC else st.ndtr = 0 ∧ st.has DMA_CCR_CIRC

/-- Without circular mode a complete transfer is disabled. -/
theorem complete_disabled {st : DmaStream} (h : st.has DMA_CCR_CIRC = false) :
    st.complete.has DMA_CCR_EN = false ∧ st.complete.has DMA_CCR_CIRC = false := by
  rw [complete, if_neg (by simp [h])]
  have hen : ~~~ DMA_CCR_EN &&& DMA_CCR_EN = 0 := by decide
  have hcirc : ~~~ DMA_CCR_EN &&& DMA_CCR_CIRC = DMA_CCR_CIRC := by decide
  constructor
  · simp only [has, BitVec.and_assoc, hen]; simp
  · simp only [has, BitVec.and_assoc, hcirc]; exact h

end DmaStream

namespace Stm32Dma

variable {ω : Type} {junk : Stm32Dma → BitVec 8} {bus : Bus ω} {s : Stm32Dma} {w : ω}
  {x : Stm32Dma × ω} {c : ℕ} {st : DmaStream} {now : BitVec 64}

/-! ## The next item -/

theorem rewind_of_ne (h : st.ndtr ≠ 0) : rewind st = st := if_neg fun h' => h h'.1

theorem rewind_of_not_circ (h : st.has DMA_CCR_CIRC = false) : rewind st = st :=
  if_neg fun h' => by simp [h] at h'

theorem rewind_enabled (h : st.ndtr = 0) (hc : st.has DMA_CCR_CIRC = true) :
    (rewind st).has DMA_CCR_EN = true := by
  rw [rewind, if_pos ⟨h, hc⟩]
  have hen : (st.cr ||| DMA_CCR_EN) &&& DMA_CCR_EN = DMA_CCR_EN := by
    ext i; simpa using Or.inr
  simp only [DmaStream.has, hen]; decide

theorem finish_stream_last (h : (s.stream c).ndtr = 1) :
    (s.finish c).stream c = (s.stream c).advance.complete := by
  have hz : (s.stream c).advance.ndtr = 0 := by rw [DmaStream.advance, h]; rfl
  rw [finish, if_pos hz]
  exact setStream_stream s c _

/-- **Whether the channel is enabled after an expiry.** -/
theorem rewind_finish (h : (s.stream c).has DMA_CCR_EN = true) :
    (rewind ((s.finish c).stream c)).has DMA_CCR_EN = true ↔ (s.stream c).Continues := by
  unfold DmaStream.Continues
  rw [if_pos h]
  by_cases hlast : (s.stream c).ndtr = 1
  · have hz := (finish_last hlast).1
    cases hcirc : (s.stream c).has DMA_CCR_CIRC with
    | true =>
      have hst := finish_stream_last hlast
      rw [DmaStream.complete, if_pos (by exact hcirc)] at hst
      have hrw := rewind_enabled hz (by rw [hst]; exact hcirc)
      exact ⟨fun _ => .inr rfl, fun _ => hrw⟩
    | false =>
      obtain ⟨hen, hcirc'⟩ := @DmaStream.complete_disabled (s.stream c).advance hcirc
      rw [finish_stream_last hlast, rewind_of_not_circ hcirc', hen]
      simp [hlast]
  · have hne : ((s.finish c).stream c).ndtr ≠ 0 := by
      rw [finish_more hlast, setStream_stream]
      have hsub : (s.stream c).advance.ndtr = (s.stream c).ndtr - 1 := rfl
      rw [hsub]; bv_omega
    rw [rewind_of_ne hne, finish_more hlast, setStream_stream]
    exact ⟨fun _ => .inl hlast, fun _ => h⟩

theorem rewind_disabled (h : st.has DMA_CCR_EN = false) :
    (rewind st).has DMA_CCR_EN = true ↔ st.Continues := by
  unfold DmaStream.Continues
  rw [if_neg (by simp [h])]
  by_cases hc : st.ndtr = 0 ∧ st.has DMA_CCR_CIRC = true
  · exact ⟨fun _ => hc, fun _ => rewind_enabled hc.1 hc.2⟩
  · rw [rewind, if_neg hc, h]
    exact ⟨(nomatch ·), fun h' => absurd h' hc⟩

/-! ## The timer and the channel -/

/-- The timer, and the channel it is for. -/
def circular (s : Stm32Dma) : Option (BitVec 64) × BitVec 32 := (s.circularTimer, s.chanCircularMode)

theorem finish_circular (s : Stm32Dma) (c : ℕ) : (s.finish c).circular = s.circular := by
  unfold finish
  dsimp only
  split <;> rfl

theorem streamStartOnce_circular {streamNo : BitVec 32} {skip : Bool}
    (h : streamStartOnce junk bus s w streamNo skip = .ok x) : x.1.circular = s.circular := by
  rw [(streamStartOnce_ok h).2]
  split
  · exact finish_circular s _
  · rfl

theorem streamStartWhole_circular (hc : c < DMA_Stream_Count) {fuel : ℕ}
    (h : streamStartWhole junk bus (BitVec.ofNat 32 (c + 1)) true fuel (s, w) = .ok x) :
    x.1.circular = s.circular :=
  (startWhole_inv hc (I := fun t => t.circular = s.circular)
    (fun t ht _ => (finish_circular t c).trans ht) rfl h).1

/-- The timer runs exactly if a channel is in circular mode, and the channel
    exists. -/
structure Consistent (s : Stm32Dma) : Prop where
  armed : s.circularTimer.isSome = true ↔ s.chanCircularMode ≠ 0
  range : s.chanCircularMode.toNat ≤ DMA_Stream_Count

theorem Consistent.congr {t : Stm32Dma} (h : s.Consistent) (ht : t.circular = s.circular) :
    t.Consistent := by
  have htimer : t.circularTimer = s.circularTimer := congrArg Prod.fst ht
  have hchan : t.chanCircularMode = s.chanCircularMode := congrArg Prod.snd ht
  exact ⟨by rw [htimer, hchan]; exact h.armed, by rw [hchan]; exact h.range⟩

/-- A write to a register keeps the timer and the channel together. -/
theorem Consistent.write {addr size : ℕ} {value : BitVec 64} (h : s.Consistent)
    (hw : Stm32Dma.write junk bus now s w addr value size = .ok x) : x.1.Consistent := by
  obtain ⟨-, ⟨-, hx⟩ | ⟨-, hno, hw⟩⟩ := write_ok hw
  · exact h.congr (by rw [hx]; rfl)
  rcases streamWrite_ok hw with ⟨-, y, st, hy, hx⟩ | ⟨-, st, hx⟩
  · rcases enable_ok hy with ⟨-, -, -, hy⟩ | ⟨-, -, hy⟩ | ⟨-, hy⟩
    · exact h.congr (by rw [hx]; exact streamStartWhole_circular hno hy)
    · rw [hx, hy]
      generalize (addr - 8) / 16 = c at hno
      have hnat : (BitVec.ofNat 32 (c + 1)).toNat = c + 1 := by
        unfold DMA_Stream_Count at hno
        rw [BitVec.toNat_ofNat]; omega
      refine ⟨⟨fun _ h0 => ?_, fun _ => rfl⟩, ?_⟩
      · change BitVec.ofNat 32 (c + 1) = 0 at h0
        rw [h0] at hnat; simp at hnat
      · show (BitVec.ofNat 32 (c + 1)).toNat ≤ _
        rw [hnat]; exact hno
    · exact h.congr (by rw [hx, hy]; rfl)
  · exact h.congr (by rw [hx]; rfl)

/-- The operations that keep the timer and the channel together: a reset with no
    channel in circular mode, an expiry after which the channel is enabled, and
    all others. -/
def KeepsCircular (s : Stm32Dma) : Op → Prop
  | .reset => s.chanCircularMode = 0
  | .circularTimer =>
    s.circularTimer.isSome = true → (s.stream (s.chanCircularMode - 1).toNat).Continues
  | _ => True

/-- An expiry leaves the channel recorded, and the timer armed if it is enabled. -/
theorem streamCircularTimer_ok (h : streamCircularTimer junk bus now s w = .ok x)
    (hoff : s.circularTimer = none) : x.1.chanCircularMode = s.chanCircularMode ∧
      (x.1.circularTimer.isSome = true ↔ (s.stream (s.chanCircularMode - 1).toNat).Continues) := by
  unfold streamCircularTimer at h
  obtain ⟨⟨s₁, w₁⟩, hy, h⟩ := Machine.bind_eq_ok.1 h
  have hcirc := streamStartOnce_circular hy
  have hchan : s₁.chanCircularMode = s.chanCircularMode := congrArg Prod.snd hcirc
  have htimer : s₁.circularTimer = none := (congrArg Prod.fst hcirc).trans hoff
  obtain ⟨-, hs₁⟩ := streamStartOnce_ok hy
  generalize (s.chanCircularMode - 1).toNat = i at h hs₁ ⊢
  have hen : (rewind (s₁.stream i)).has DMA_CCR_EN = true ↔ (s.stream i).Continues := by
    change s₁ = _ at hs₁
    rw [hs₁, Bool.false_or]
    split
    · rename_i h'; exact rewind_finish h'
    · rename_i h'; exact rewind_disabled (by simpa using h')
  dsimp only at h
  rw [setStream_stream] at h
  split at h
  · rename_i h'
    cases h
    exact ⟨hchan, fun _ => hen.1 h', fun _ => rfl⟩
  · rename_i h'
    cases h
    refine ⟨hchan, fun h'' => ?_, fun h'' => absurd (hen.2 h'') h'⟩
    change s₁.circularTimer.isSome = true at h''
    rw [htimer] at h''; cases h''

/-- **From a consistent state an operation leads to a consistent state exactly
    if it is one of these.** -/
theorem Consistent.step_iff {o : BitVec 64 × Op} {y : Stm32Dma × ω} (h : x.1.Consistent)
    (hy : step junk bus x o = .ok y) : y.1.Consistent ↔ x.1.KeepsCircular o.2 := by
  obtain ⟨now, o⟩ := o
  obtain ⟨s, w⟩ := x
  cases o with
  | read addr size =>
    obtain ⟨-, -, hy⟩ := Machine.bind_eq_ok.1 hy
    cases hy
    exact ⟨fun _ => trivial, fun _ => h⟩
  | write addr data size => exact ⟨fun _ => trivial, fun _ => h.write hy⟩
  | irq level =>
    refine ⟨fun _ => trivial, fun _ => h.congr ?_⟩
    change irqHandler junk bus s w level = .ok y at hy
    unfold irqHandler at hy
    split at hy
    · cases hy; rfl
    · split at hy
      · cases hy
      · exact streamStartOnce_circular hy
    · split at hy
      · cases hy
      · exact streamStartOnce_circular hy
    · cases hy
  | circularTimer =>
    change (if s.circularTimer.isSome then
      streamCircularTimer junk bus now { s with circularTimer := none } w else .ok (s, w)) = .ok y at hy
    split at hy
    · rename_i harmed
      obtain ⟨hchan, htimer⟩ := streamCircularTimer_ok hy rfl
      change y.1.chanCircularMode = s.chanCircularMode at hchan
      have hne : s.chanCircularMode ≠ 0 := h.armed.1 harmed
      constructor
      · intro hyc _
        exact htimer.1 (hyc.armed.2 (by rw [hchan]; exact hne))
      · intro hk
        have hsome := htimer.2 (hk harmed)
        exact ⟨⟨fun _ => by rw [hchan]; exact hne, fun _ => hsome⟩, by rw [hchan]; exact h.range⟩
    · rename_i harmed
      cases hy
      exact ⟨fun _ harmed' => absurd harmed' harmed, fun _ => h⟩
  | reset =>
    cases hy
    constructor
    · intro hyc
      by_contra hne
      exact absurd rfl (hyc.armed.1 (h.armed.2 hne))
    · intro h0
      refine ⟨⟨fun harmed => absurd h0 (h.armed.1 harmed), fun hne => absurd rfl hne⟩, ?_⟩
      show (0 : BitVec 32).toNat ≤ _
      decide

theorem consistent_iff_range (s : Stm32Dma) : s.Consistent ↔
    (s.circularTimer.isSome = true ↔ s.chanCircularMode ≠ 0) ∧
      (s.chanCircularMode ≠ 0 → 1 ≤ s.chanCircularMode.toNat ∧ s.chanCircularMode.toNat ≤ 8) := by
  constructor
  · intro h
    refine ⟨h.armed, fun hne => ⟨?_, h.range⟩⟩
    rw [Nat.one_le_iff_ne_zero]
    exact fun h0 => hne (BitVec.eq_of_toNat_eq h0)
  · rintro ⟨harmed, hrange⟩
    refine ⟨harmed, ?_⟩
    by_cases h0 : s.chanCircularMode = 0
    · rw [h0]; decide
    · exact (hrange h0).2

theorem consistent_init : init.Consistent :=
  ⟨⟨(nomatch ·), fun h => absurd rfl h⟩, by decide⟩

/-- **The circular timer and its channel stay together** along a run exactly if no
    reset happens while a channel is in circular mode, and the channel is enabled
    after every expiry. -/
theorem consistent_iff {l : List (BitVec 64 × Op)} {y : Stm32Dma × ω}
    (h : Machine.run (step junk bus) (init, w) l = .ok y) :
    (∀ x, Machine.Visits (step junk bus) (init, w) l x →
      (x.1.circularTimer.isSome = true ↔ x.1.chanCircularMode ≠ 0) ∧
        (x.1.chanCircularMode ≠ 0 →
          1 ≤ x.1.chanCircularMode.toNat ∧ x.1.chanCircularMode.toNat ≤ 8)) ↔
      ∀ x o, Machine.Takes (step junk bus) (init, w) l x o → x.1.KeepsCircular o.2 := by
  have hvis := Machine.visits_iff_takes (I := fun _ => True)
    (P := fun x : Stm32Dma × ω => x.1.Consistent) (C := fun x o => x.1.KeepsCircular o.2)
    (fun _ _ _ _ _ => trivial) (fun _ _ _ _ hx hy => hx.step_iff hy) trivial consistent_init h
  rw [← hvis]
  exact forall₂_congr fun x _ => (consistent_iff_range x.1).symm

/-- The first channel in circular mode, and an expiry. -/
theorem consistent_iff_armed : ∃ y,
    Machine.run (step (fun _ => 0) ram) (init, fun _ => 0) [(0, .write 0x0c 1 4),
      (0, .write 0x08 0x21 4), (0, .circularTimer)] = .ok y ∧
    y.1.circularTimer.isSome = true ∧ y.1.chanCircularMode ≠ 0 := by
  refine ⟨_, rfl, ?_⟩
  have hall := (@consistent_iff _ (fun _ => 0) ram (fun _ => 0)
    [(0, .write 0x0c 1 4), (0, .write 0x08 0x21 4), (0, .circularTimer)] _ rfl).2 ?_
  · exact ⟨rfl, (hall _ ⟨_, [], (List.append_nil _).symm, rfl⟩).1.1 rfl⟩
  · intro x o ho
    rcases Machine.takes_cons ho with ⟨-, rfl⟩ | ⟨t₁, ht₁, ho⟩
    · trivial
    cases ht₁
    rcases Machine.takes_cons ho with ⟨-, rfl⟩ | ⟨t₂, ht₂, ho⟩
    · trivial
    cases ht₂
    rcases Machine.takes_cons ho with ⟨rfl, rfl⟩ | ⟨t₃, -, l₁, l₂, hl, -⟩
    · exact fun _ => Or.inr rfl
    · simp at hl

/-- A reset while a channel is in circular mode: the timer runs on, and its next
    expiry looks for the stream before the first one. -/
theorem not_consistent_reset : ∃ y,
    Machine.run (step (fun _ => 0) ram) (init, fun _ => 0) [(0, .write 0x0c 1 4),
      (0, .write 0x08 0x21 4), (0, .reset)] = .ok y ∧
    y.1.circularTimer.isSome = true ∧ y.1.chanCircularMode = 0 ∧
    step (fun _ => 0) ram y (0, .circularTimer) = .error .outOfBounds :=
  ⟨_, rfl, rfl, rfl, rfl⟩

end Stm32Dma

end Bluepill

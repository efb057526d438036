/-
  The ring of the circular mode.

  Each expiry of the timer moves one item.  The item is counted down and the addresses
  are stepped by `stm32_dma_stream_start_once`; after the last one the timer starts
  over with the saved registers.  So after `k` expiries the stream stands at item
  `k mod N` (`DmaStream.turned`), for ever (`circular_ring`).
-/
import Bluepill.Dma.Circular
import Bluepill.Dma.Whole

namespace Bluepill

open Dma

namespace DmaStream

/-- The stream, `k` items after its start, in a ring of `ndtr` items. -/
def turned (st : DmaStream) (k : ℕ) : DmaStream :=
  { st with
    ndtr := st.ndtr - BitVec.ofNat 32 (k % st.ndtr.toNat)
    par := st.par + BitVec.ofNat 32 (k % st.ndtr.toNat * st.parStep)
    mar := st.mar + BitVec.ofNat 32 (k % st.ndtr.toNat * st.marStep) }

/-- A stream in circular mode, at the start of a turn. -/
structure Ring (st : DmaStream) : Prop where
  en : st.has DMA_CCR_EN = true
  circ : st.has DMA_CCR_CIRC = true
  dir : st.has DMA_CCR_DIR = false
  psize : st.psize ≠ 0
  msize : st.msize ≠ 0
  ndtr : st.ndtr ≠ 0
  circularNdtr : st.circularNdtr = st.ndtr
  circularPar : st.circularPar = st.par
  circularMar : st.circularMar = st.mar

variable {st : DmaStream}

theorem turned_zero (st : DmaStream) : st.turned 0 = st := by
  simp [turned]

theorem ndtr_pos (h : st.ndtr ≠ 0) : 0 < st.ndtr.toNat := by
  rw [Nat.pos_iff_ne_zero]
  exact fun h0 => h (BitVec.eq_of_toNat_eq h0)

theorem toNat_turned_ndtr (h : st.ndtr ≠ 0) (k : ℕ) :
    (st.turned k).ndtr.toNat = st.ndtr.toNat - k % st.ndtr.toNat := by
  have hlt := Nat.mod_lt k (ndtr_pos h)
  have hN := st.ndtr.isLt
  show (st.ndtr - BitVec.ofNat 32 (k % st.ndtr.toNat)).toNat = _
  rw [BitVec.toNat_sub_of_le, BitVec.toNat_ofNat, Nat.mod_eq_of_lt (by omega)]
  rw [BitVec.le_def, BitVec.toNat_ofNat]
  omega

/-- The last item of a turn. -/
theorem Ring.turned_last (h : st.Ring) {k : ℕ} (hk : (st.turned k).ndtr = 1) :
    st.turned (k + 1) = st := by
  have hpos := ndtr_pos h.ndtr
  have hlast : st.ndtr.toNat - k % st.ndtr.toNat = 1 := by
    rw [← toNat_turned_ndtr h.ndtr, hk]
    rfl
  have hmod : (k + 1) % st.ndtr.toNat = 0 := by
    rw [← Nat.mod_add_mod, show k % st.ndtr.toNat + 1 = st.ndtr.toNat by omega, Nat.mod_self]
  simp [turned, hmod]

/-- The other items. -/
theorem Ring.turned_more (h : st.Ring) {k : ℕ} (hk : (st.turned k).ndtr ≠ 1) :
    st.turned (k + 1) = (st.turned k).advance := by
  have hlt := Nat.mod_lt k (ndtr_pos h.ndtr)
  have hmore : st.ndtr.toNat - k % st.ndtr.toNat ≠ 1 := by
    rw [← toNat_turned_ndtr h.ndtr]
    exact fun h1 => hk (BitVec.eq_of_toNat_eq h1)
  have hmod : (k + 1) % st.ndtr.toNat = k % st.ndtr.toNat + 1 := by
    rw [← Nat.mod_add_mod, Nat.mod_eq_of_lt (by omega)]
  have hadv := (st.turned k).advanced_advance
  have hadd : ∀ (x : BitVec 32) (d : ℕ), x + BitVec.ofNat 32 ((k % st.ndtr.toNat + 1) * d) =
      x + BitVec.ofNat 32 (k % st.ndtr.toNat * d) + BitVec.ofNat 32 d := by
    intro x d
    rw [BitVec.add_assoc, ← BitVec.ofNat_add, Nat.succ_mul]
  have hpar : (st.turned (k + 1)).par = (st.turned k).advance.par := by
    rw [hadv.par]
    show _ + BitVec.ofNat 32 ((k + 1) % st.ndtr.toNat * st.parStep) = _
    rw [hmod, hadd]
    rfl
  have hmar : (st.turned (k + 1)).mar = (st.turned k).advance.mar := by
    rw [hadv.mar]
    show _ + BitVec.ofNat 32 ((k + 1) % st.ndtr.toNat * st.marStep) = _
    rw [hmod, hadd]
    rfl
  have hndtr : (st.turned (k + 1)).ndtr = (st.turned k).advance.ndtr := by
    show st.ndtr - BitVec.ofNat 32 ((k + 1) % st.ndtr.toNat) =
      st.ndtr - BitVec.ofNat 32 (k % st.ndtr.toNat) - 1
    rw [hmod, BitVec.ofNat_add]
    bv_omega
  calc st.turned (k + 1) =
      { st with
        ndtr := (st.turned (k + 1)).ndtr
        par := (st.turned (k + 1)).par
        mar := (st.turned (k + 1)).mar } := rfl
    _ = { st with
          ndtr := (st.turned k).advance.ndtr
          par := (st.turned k).advance.par
          mar := (st.turned k).advance.mar } := by rw [hndtr, hpar, hmar]
    _ = (st.turned k).advance := rfl

theorem or_enabled (h : st.has DMA_CCR_EN = true) : st.cr ||| DMA_CCR_EN = st.cr := by
  have hbit : st.cr.getLsbD 0 = true :=
    (Word.and_twoPow_ne_zero st.cr (by decide)).1 (bne_iff_ne.1 h)
  refine BitVec.eq_of_getLsbD_eq fun i hi => ?_
  rw [BitVec.getLsbD_or, show DMA_CCR_EN = BitVec.twoPow 32 0 from rfl, BitVec.getLsbD_twoPow]
  by_cases h0 : 0 = i
  · subst h0
    rw [hbit, Bool.true_or]
  · simp [h0]

end DmaStream

/-- The accesses to the items of the ring succeed. -/
structure Bus.Answers {ω : Type} (bus : Bus ω) (st : DmaStream) : Prop where
  read : ∀ w k, ∃ buf w', bus.read w (st.turned k).par.toNat st.psize = .ok (buf, w')
  write : ∀ w k item, ∃ w', bus.write w (st.turned k).mar.toNat item = .ok w'

namespace Stm32Dma

variable {ω : Type} {junk : Stm32Dma → BitVec 8} {bus : Bus ω} {s t : Stm32Dma} {w : ω} {c k : ℕ}
  {st : DmaStream}

/-- The next item of the ring, or the first one. -/
theorem rewind_turned (h : st.Ring) (hk : s.stream c = st.turned k) :
    rewind ((s.finish c).stream c) = st.turned (k + 1) := by
  by_cases hlast : (s.stream c).ndtr = 1
  · have hcirc : (s.stream c).advance.has DMA_CCR_CIRC = true := by
      rw [hk]
      exact h.circ
    rw [finish_stream_last hlast, DmaStream.complete, if_pos hcirc, h.turned_last (hk ▸ hlast)]
    have hz : (s.stream c).advance.ndtr = 0 := by
      rw [DmaStream.advance, hlast]
      rfl
    rw [rewind, if_pos ⟨hz, hcirc⟩, hk]
    have hsame : ∀ {mar par ndtr cr : BitVec 32}, mar = st.mar → par = st.par → ndtr = st.ndtr →
        cr = st.cr → { st with mar, par, ndtr, cr } = st := by
      rintro _ _ _ _ rfl rfl rfl rfl
      rfl
    exact hsame h.circularMar h.circularPar h.circularNdtr (DmaStream.or_enabled h.en)
  · have hne : (s.stream c).advance.ndtr ≠ 0 := by
      have hsub : (s.stream c).advance.ndtr = (s.stream c).ndtr - 1 := rfl
      rw [hsub]
      bv_omega
    rw [finish_more hlast, setStream_stream, rewind_of_ne hne, hk, h.turned_more (hk ▸ hlast)]

/-- The channel `c` is in circular mode, `k` items after `st`. -/
structure InRing (s : Stm32Dma) (c : ℕ) (st : DmaStream) (k : ℕ) : Prop where
  chan : s.chanCircularMode = BitVec.ofNat 32 (c + 1)
  timer : s.circularTimer.isSome = true
  stream : s.stream c = st.turned k

/-- The accesses of an expiry, and what it leaves. -/
theorem streamCircularTimer_ring (hc : c < DMA_Stream_Count) (h : st.Ring) (hbus : bus.Answers st)
    (hchan : s.chanCircularMode = BitVec.ofNat 32 (c + 1)) (hk : s.stream c = st.turned k)
    (now : BitVec 64) (w : ω) :
    ∃ t buf w₁ w₂, streamCircularTimer junk bus now s w = .ok (t, w₂) ∧ t.InRing c st (k + 1) ∧
      bus.read w (st.turned k).par.toNat st.psize = .ok (buf, w₁) ∧
      bus.write w₁ (st.turned k).mar.toNat ((buf ++ [junk s]).take st.msize) = .ok w₂ := by
  obtain ⟨buf, w₁, hread⟩ := hbus.read w k
  obtain ⟨w₂, hwrite⟩ := hbus.write w₁ k ((buf ++ [junk s]).take st.msize)
  have hroute : (s.stream c).route =
      (((st.turned k).par, st.psize), ((st.turned k).mar, st.msize)) := by
    rw [hk, DmaStream.route, if_neg (by rw [show (st.turned k).has _ = _ from h.dir]; decide)]
    rfl
  have hone : streamStartOnce junk bus s w (BitVec.ofNat 32 (c + 1)) false =
      .ok (s.finish c, w₂) := by
    have hread' : bus.read w (s.stream c).route.1.1.toNat (s.stream c).route.1.2 =
        .ok (buf, w₁) := by
      rw [hroute]
      exact hread
    have hwrite' : bus.write w₁ (s.stream c).route.2.1.toNat
        ((buf ++ [junk s]).take (s.stream c).route.2.2) = .ok w₂ := by
      rw [hroute]
      exact hwrite
    refine startOnce_of hc ?_ ?_ ?_ hread' hwrite'
    · rw [hk]
      exact h.psize
    · rw [hk]
      exact h.msize
    · rw [hk]
      exact h.en
  have hnext := rewind_turned h hk
  have hen : (st.turned (k + 1)).has DMA_CCR_EN = true := h.en
  have hchan' : (s.finish c).chanCircularMode = s.chanCircularMode :=
    congrArg Prod.snd (finish_circular s c)
  refine ⟨{ (s.finish c).setStream c (st.turned (k + 1)) with
      circularTimer := some (now + DMA_Circular_delay) },
    buf, w₁, w₂, ?_, ⟨?_, ?_, ?_⟩, hread, hwrite⟩
  · rw [streamCircularTimer, hchan, hone, Machine.ok_bind]
    dsimp only
    rw [streamNo_toNat hc, setStream_stream, hnext, if_pos hen]
  · exact hchan'.trans hchan
  · rfl
  · exact setStream_stream _ c _

/-- **An expiry moves the next item of the ring.** -/
theorem InRing.expire (hs : s.InRing c st k) (hc : c < DMA_Stream_Count) (h : st.Ring)
    (hbus : bus.Answers st) (now : BitVec 64) (w : ω) :
    ∃ t buf w₁ w₂, step junk bus (s, w) (now, .circularTimer) = .ok (t, w₂) ∧
      t.InRing c st (k + 1) ∧
      bus.read w (st.turned k).par.toNat st.psize = .ok (buf, w₁) ∧
      bus.write w₁ (st.turned k).mar.toNat
        ((buf ++ [junk { s with circularTimer := none }]).take st.msize) = .ok w₂ := by
  have hstep : step junk bus (s, w) (now, .circularTimer) =
      streamCircularTimer junk bus now { s with circularTimer := none } w := if_pos hs.timer
  rw [hstep]
  exact streamCircularTimer_ring (s := { s with circularTimer := none }) hc h hbus hs.chan hs.stream
    now w

/-- The expiries at the times `l`. -/
def expiries (l : List (BitVec 64)) : List (BitVec 64 × Op) := l.map fun now => (now, .circularTimer)

theorem InRing.run (hc : c < DMA_Stream_Count) (h : st.Ring) (hbus : bus.Answers st)
    {l : List (BitVec 64)} : ∀ {s : Stm32Dma} {w : ω} {k : ℕ}, s.InRing c st k →
      ∃ x, Machine.run (step junk bus) (s, w) (expiries l) = .ok x ∧
        x.1.InRing c st (k + l.length) := by
  induction l with
  | nil =>
    intro s w k hs
    exact ⟨(s, w), rfl, hs⟩
  | cons now l ih =>
    intro s w k hs
    obtain ⟨t, -, -, w₂, hstep, ht, -⟩ := @InRing.expire _ junk _ _ _ _ _ hs hc h hbus now w
    obtain ⟨x, hx, hlast⟩ := @ih t w₂ (k + 1) ht
    refine ⟨x, Machine.run_cons_ok.2 ⟨(t, w₂), hstep, hx⟩, ?_⟩
    rw [List.length_cons, show k + (l.length + 1) = k + 1 + l.length by omega]
    exact hlast

/-- **The addresses of the circular mode.**  After `k` expiries, at the times `l`, the stream stands
    at the item `k mod N` of its ring, and the next expiry moves that item. -/
theorem circular_ring (hc : c < DMA_Stream_Count) (h : (s.stream c).Ring)
    (hchan : s.chanCircularMode = BitVec.ofNat 32 (c + 1)) (htimer : s.circularTimer.isSome = true)
    (hbus : bus.Answers (s.stream c)) (l : List (BitVec 64)) :
    ∃ x, Machine.run (step junk bus) (s, w) (expiries l) = .ok x ∧
      (x.1.stream c).ndtr.toNat =
        (s.stream c).ndtr.toNat - l.length % (s.stream c).ndtr.toNat ∧
      (x.1.stream c).par = (s.stream c).par +
        BitVec.ofNat 32 (l.length % (s.stream c).ndtr.toNat * (s.stream c).parStep) ∧
      (x.1.stream c).mar = (s.stream c).mar +
        BitVec.ofNat 32 (l.length % (s.stream c).ndtr.toNat * (s.stream c).marStep) ∧
      (x.1.stream c).has DMA_CCR_EN = true ∧ x.1.circularTimer.isSome = true ∧
      ∀ now, ∃ y buf w₁, step junk bus x (now, .circularTimer) = .ok y ∧
        bus.read x.2 (x.1.stream c).par.toNat (s.stream c).psize = .ok (buf, w₁) ∧
        bus.write w₁ ((s.stream c).mar + BitVec.ofNat 32
            (l.length % (s.stream c).ndtr.toNat * (s.stream c).marStep)).toNat
          ((buf ++ [junk { x.1 with circularTimer := none }]).take (s.stream c).msize) = .ok y.2 := by
  have hs : s.InRing c (s.stream c) 0 := ⟨hchan, htimer, (DmaStream.turned_zero _).symm⟩
  obtain ⟨⟨t, w'⟩, hrun, ht⟩ := @InRing.run _ junk _ _ _ hc h hbus l s w 0 hs
  rw [Nat.zero_add] at ht
  refine ⟨(t, w'), hrun, ?_, ?_, ?_, ?_, ht.timer, fun now => ?_⟩
  · rw [ht.stream, DmaStream.toNat_turned_ndtr h.ndtr]
  · rw [ht.stream]
    rfl
  · rw [ht.stream]
    rfl
  · rw [ht.stream]
    exact h.en
  · obtain ⟨u, buf, w₁, w₂, hstep, -, hread, hwrite⟩ :=
      @InRing.expire _ junk _ _ _ _ _ ht hc h hbus now w'
    refine ⟨(u, w₂), buf, w₁, hstep, ?_, hwrite⟩
    rw [ht.stream]
    exact hread

/-- The first channel, with a ring of two bytes, in the third turn. -/
theorem circular_ring_two : ∃ x,
    Machine.run (step (fun _ => 0) ram) ({ init with
      circularTimer := some 0
      chanCircularMode := 1
      stream := fun _ => ⟨0xa1, 2, 0x100, 0x200, 0x100, 0x200, 2, 0⟩ }, fun _ => 7)
      (expiries [1, 2, 3, 4, 5]) = .ok x ∧
    (x.1.stream 0).ndtr.toNat = 1 ∧ (x.1.stream 0).mar = 0x201 := by
  obtain ⟨x, hx, hndtr, -, hmar, -⟩ := @circular_ring _ (fun _ => 0) ram { init with
      circularTimer := some 0
      chanCircularMode := 1
      stream := fun _ => ⟨0xa1, 2, 0x100, 0x200, 0x100, 0x200, 2, 0⟩ } (fun _ => 7) 0 (by decide)
    ⟨by decide, by decide, by decide, by decide, by decide, by decide, rfl, rfl, rfl⟩ rfl rfl
    ⟨fun _ _ => ⟨_, _, rfl⟩, fun _ _ _ => ⟨_, rfl⟩⟩ [1, 2, 3, 4, 5]
  exact ⟨x, hx, hndtr, hmar⟩

end Stm32Dma

end Bluepill

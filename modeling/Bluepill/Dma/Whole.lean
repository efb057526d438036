/-
  Whole transfers.

  `stm32_dma_stream_start_whole` moves the items of a stream one after the other.
  With one size on both sides and all addresses in memory, it stops after as many
  items as `NDTR` says, and memory is as after moving them in turn
  (`startWhole_transfers`): in either direction, with any increments, whether the
  two sides overlap or not.

  The last item changes the control register, but only the bit that enables the
  stream, and nothing the loop does depends on that one (`Advanced`).
-/
import Bluepill.Dma.Copy

namespace Bluepill

open Dma

/-- The addresses in `A` are memory, with the contents that `view` shows. -/
structure Bus.IsRam {ω : Type} (bus : Bus ω) (view : ω → ℕ → BitVec 8) (A : ℕ → Prop) : Prop where
  read : ∀ w a n, (∀ j < n, A (a + j)) → bus.read w a n = .ok (Memory.get (view w) a n, w)
  write : ∀ w a l, (∀ j < l.length, A (a + j)) →
    ∃ w', bus.write w a l = .ok w' ∧ view w' = Memory.put (view w) a l

theorem ram_isRam : ram.IsRam id fun _ => True :=
  ⟨fun _ _ _ _ => rfl, fun _ _ _ _ => ⟨_, rfl, rfl⟩⟩

namespace DmaStream

/-- Where the next item comes from. -/
def src (st : DmaStream) : BitVec 32 := st.route.1.1

/-- Where the next item goes. -/
def dst (st : DmaStream) : BitVec 32 := st.route.2.1

/-- What an item adds to `PAR`. -/
def parStep (st : DmaStream) : ℕ := if st.has DMA_CCR_PINC then st.psize else 0

/-- What an item adds to `MAR`. -/
def marStep (st : DmaStream) : ℕ := if st.has DMA_CCR_MINC then st.msize else 0

def srcStep (st : DmaStream) : ℕ := if st.has DMA_CCR_DIR then st.marStep else st.parStep

def dstStep (st : DmaStream) : ℕ := if st.has DMA_CCR_DIR then st.parStep else st.marStep

/-- The stream is an item further than `st`, and has the settings of `st`. -/
structure Advanced (st st' : DmaStream) : Prop where
  ndtr : st'.ndtr = st.ndtr - 1
  par : st'.par = st.par + BitVec.ofNat 32 st.parStep
  mar : st'.mar = st.mar + BitVec.ofNat 32 st.marStep
  psize : st'.psize = st.psize
  msize : st'.msize = st.msize
  has : ∀ mask, mask &&& DMA_CCR_EN = 0 → st'.has mask = st.has mask

variable {st st' : DmaStream}

theorem advanced_advance (st : DmaStream) : Advanced st st.advance := by
  refine ⟨rfl, ?_, ?_, rfl, rfl, fun _ _ => rfl⟩
  · rw [advance_par, parStep]
    split
    · rfl
    · exact (BitVec.add_zero _).symm
  · rw [advance_mar, marStep]
    split
    · rfl
    · exact (BitVec.add_zero _).symm

/-- The end of a transfer changes the enable bit only. -/
theorem Advanced.complete (h : Advanced st st') : Advanced st st'.complete := by
  unfold DmaStream.complete
  split
  · exact h
  · refine ⟨h.ndtr, h.par, h.mar, ?_, ?_, fun mask hmask => ?_⟩
    · rw [← h.psize, DmaStream.psize, DmaStream.psize]
      simp only [BitVec.ushiftRight_and_distrib, BitVec.and_assoc]
      rfl
    · rw [← h.msize, DmaStream.msize, DmaStream.msize]
      simp only [BitVec.ushiftRight_and_distrib, BitVec.and_assoc]
      rfl
    · rw [← h.has mask hmask, DmaStream.has, BitVec.and_assoc, Word.not_and_of_and_eq_zero hmask]
      rfl

theorem Advanced.parStep (h : Advanced st st') : st'.parStep = st.parStep := by
  rw [DmaStream.parStep, DmaStream.parStep, h.has _ (by decide), h.psize]

theorem Advanced.marStep (h : Advanced st st') : st'.marStep = st.marStep := by
  rw [DmaStream.marStep, DmaStream.marStep, h.has _ (by decide), h.msize]

theorem Advanced.srcStep (h : Advanced st st') : st'.srcStep = st.srcStep := by
  rw [DmaStream.srcStep, DmaStream.srcStep, h.has _ (by decide), h.parStep, h.marStep]

theorem Advanced.dstStep (h : Advanced st st') : st'.dstStep = st.dstStep := by
  rw [DmaStream.dstStep, DmaStream.dstStep, h.has _ (by decide), h.parStep, h.marStep]

theorem src_eq (st : DmaStream) : st.src = if st.has DMA_CCR_DIR then st.mar else st.par := by
  unfold src route
  split <;> rfl

theorem dst_eq (st : DmaStream) : st.dst = if st.has DMA_CCR_DIR then st.par else st.mar := by
  unfold dst route
  split <;> rfl

theorem Advanced.src (h : Advanced st st') : st'.src = st.src + BitVec.ofNat 32 st.srcStep := by
  rw [src_eq, src_eq, DmaStream.srcStep, h.has _ (by decide), h.par, h.mar]
  split <;> rfl

theorem Advanced.dst (h : Advanced st st') : st'.dst = st.dst + BitVec.ofNat 32 st.dstStep := by
  rw [dst_eq, dst_eq, DmaStream.dstStep, h.has _ (by decide), h.par, h.mar]
  split <;> rfl

end DmaStream

namespace Stm32Dma

variable {ω : Type} {junk : Stm32Dma → BitVec 8} {bus : Bus ω} {view : ω → ℕ → BitVec 8}
  {A : ℕ → Prop} {s : Stm32Dma} {w : ω} {c size : ℕ}

theorem finish_advanced (s : Stm32Dma) (c : ℕ) :
    DmaStream.Advanced (s.stream c) ((s.finish c).stream c) := by
  have hadv := (s.stream c).advanced_advance
  by_cases hlast : (s.stream c).advance.ndtr = 0
  · rw [finish, if_pos hlast]
    show DmaStream.Advanced _ ((s.setStream c _).stream c)
    rw [setStream_stream]
    exact hadv.complete
  · rw [finish, if_neg hlast, setStream_stream]
    exact hadv

/-! ## The loop -/

/-- An item of a size, from memory to memory. -/
theorem startOnce_isRam (hram : bus.IsRam view A) (hc : c < DMA_Stream_Count) (hsize : size ≠ 0)
    (hp : (s.stream c).psize = size) (hm : (s.stream c).msize = size)
    (hsrc : ∀ j < size, A ((s.stream c).src.toNat + j))
    (hdst : ∀ j < size, A ((s.stream c).dst.toNat + j)) (w : ω) :
    ∃ w', streamStartOnce junk bus s w (BitVec.ofNat 32 (c + 1)) true = .ok (s.finish c, w') ∧
      view w' = Memory.put (view w) (s.stream c).dst.toNat
        (Memory.get (view w) (s.stream c).src.toNat size) := by
  have hroute : (s.stream c).route = (((s.stream c).src, size), ((s.stream c).dst, size)) := by
    unfold DmaStream.src DmaStream.dst DmaStream.route
    rw [hp, hm]
    split <;> rfl
  obtain ⟨w', hw', hview⟩ := hram.write w (s.stream c).dst.toNat
    (Memory.get (view w) (s.stream c).src.toNat size) (by simpa using hdst)
  have htake : (Memory.get (view w) (s.stream c).src.toNat size ++ [junk s]).take size =
      Memory.get (view w) (s.stream c).src.toNat size := List.take_left' (Memory.length_get _ _ _)
  have hread : bus.read w (s.stream c).route.1.1.toNat (s.stream c).route.1.2 =
      .ok (Memory.get (view w) (s.stream c).src.toNat size, w) := by
    rw [hroute]
    exact hram.read w _ _ hsrc
  refine ⟨w', startOnce_of hc (by rwa [hp]) (by rwa [hm]) rfl hread ?_, hview⟩
  rw [hroute, htake]
  exact hw'

/-- The state `t` is `s` after a transfer of `n` items on the channel `c`. -/
structure Transferred (s t : Stm32Dma) (c n : ℕ) : Prop where
  par : (t.stream c).par = (s.stream c).par + BitVec.ofNat 32 (n * (s.stream c).parStep)
  mar : (t.stream c).mar = (s.stream c).mar + BitVec.ofNat 32 (n * (s.stream c).marStep)
  ndtr : (t.stream c).ndtr = 0
  isr : t.isr = if n = 0 then s.isr else s.isr ||| (DMA_ISR_TCIF <<< (c * 4))
  other : ∀ i ≠ c, t.stream i = s.stream i

theorem Transferred.succ {t : Stm32Dma} {n : ℕ} (hn : (s.stream c).ndtr.toNat = n + 1)
    (h : Transferred (s.finish c) t c n) : Transferred s t c (n + 1) := by
  have hadv := finish_advanced s c
  have hadd : ∀ (x : BitVec 32) (d : ℕ),
      x + BitVec.ofNat 32 d + BitVec.ofNat 32 (n * d) = x + BitVec.ofNat 32 ((n + 1) * d) := by
    intro x d
    rw [BitVec.add_assoc, ← BitVec.ofNat_add, Nat.succ_mul, Nat.add_comm d]
  refine ⟨?_, ?_, h.ndtr, ?_, fun i hi => (h.other i hi).trans (finish_other s hi)⟩
  · rw [h.par, hadv.par, hadv.parStep, hadd]
  · rw [h.mar, hadv.mar, hadv.marStep, hadd]
  · rw [h.isr, if_neg (Nat.succ_ne_zero n)]
    split
    · rename_i h0
      exact (finish_last (BitVec.eq_of_toNat_eq (by simpa [h0] using hn))).2
    · rename_i h0
      have hmore : (s.stream c).ndtr ≠ 1 := by
        intro h1
        rw [h1] at hn
        exact h0 (by simpa using hn.symm)
      rw [finish_more hmore]
      rfl

theorem startWhole_isRam (hram : bus.IsRam view A) (hc : c < DMA_Stream_Count) (hsize : size ≠ 0)
    {dp dm n : ℕ} : ∀ {s : Stm32Dma} {w : ω} {p m : ℕ},
      (s.stream c).psize = size → (s.stream c).msize = size →
      (s.stream c).srcStep = dp → (s.stream c).dstStep = dm → (s.stream c).ndtr.toNat = n →
      (n ≠ 0 → (s.stream c).src.toNat = p ∧ (s.stream c).dst.toNat = m) →
      (∀ i < n, ∀ j < size, p + i * dp + j < 2 ^ 32 ∧ A (p + i * dp + j)) →
      (∀ i < n, ∀ j < size, m + i * dm + j < 2 ^ 32 ∧ A (m + i * dm + j)) →
      ∃ t w',
        (∀ fuel, n ≤ fuel → streamStartWhole junk bus (BitVec.ofNat 32 (c + 1)) true fuel (s, w) =
          .ok (t, w')) ∧
        (∀ fuel < n, streamStartWhole junk bus (BitVec.ofNat 32 (c + 1)) true fuel (s, w) =
          .error .outOfFuel) ∧
        view w' = Memory.moves (view w) p dp m dm size n ∧ Transferred s t c n := by
  induction n with
  | zero =>
    intro s w p m _ _ _ _ hn _ _ _
    have hz : (s.stream c).ndtr = 0 := BitVec.eq_of_toNat_eq hn
    refine ⟨s, w, fun fuel _ => startWhole_zero hc hz fuel w, fun fuel h => ?_, rfl, ?_⟩
    · exact absurd h (by omega)
    exact ⟨by simp, by simp, hz, rfl, fun _ _ => rfl⟩
  | succ n ih =>
    intro s w p m hp hm hdp hdm hn haddr hsrc hdst
    have hadv := finish_advanced s c
    have hne : (s.stream c).ndtr ≠ 0 := by
      intro h
      rw [h] at hn
      simp at hn
    obtain ⟨hsrc₀, hdst₀⟩ := haddr (Nat.succ_ne_zero n)
    obtain ⟨w₁, hstep, hview⟩ : ∃ w₁,
        streamStartOnce junk bus s w (BitVec.ofNat 32 (c + 1)) true = .ok (s.finish c, w₁) ∧ _ :=
      startOnce_isRam hram hc hsize hp hm
        (fun j hj => by simpa [hsrc₀] using (hsrc 0 (by omega) j hj).2)
        (fun j hj => by simpa [hdst₀] using (hdst 0 (by omega) j hj).2) w
    have hnext : ∀ a d i : ℕ, a + (i + 1) * d = a + d + i * d := fun a d i => by ring
    -- the addresses of the next item do not wrap around, if there is one
    have haddr' : n ≠ 0 → ((s.finish c).stream c).src.toNat = p + dp ∧
        ((s.finish c).stream c).dst.toNat = m + dm := by
      intro h0
      have hp₁ := (hsrc 1 (by omega) 0 (by omega)).1
      have hm₁ := (hdst 1 (by omega) 0 (by omega)).1
      rw [hadv.src, hadv.dst, hdp, hdm, BitVec.toNat_add, BitVec.toNat_add, hsrc₀, hdst₀,
        BitVec.toNat_ofNat, BitVec.toNat_ofNat]
      omega
    obtain ⟨t, w', hok, hfuel, hmem, ht⟩ := @ih (s.finish c) w₁ (p + dp) (m + dm)
      (hadv.psize.trans hp) (hadv.msize.trans hm) (hadv.srcStep.trans hdp) (hadv.dstStep.trans hdm)
      (by rw [hadv.ndtr]; bv_omega) haddr'
      (fun i hi j hj => by rw [← hnext]; exact hsrc (i + 1) (by omega) j hj)
      (fun i hi j hj => by rw [← hnext]; exact hdst (i + 1) (by omega) j hj)
    refine ⟨t, w', fun fuel hle => ?_, fun fuel hlt => ?_, ?_, ht.succ hn⟩
    · obtain ⟨fuel, rfl⟩ := Nat.exists_eq_add_of_lt (show 0 < fuel by omega)
      rw [Nat.zero_add, startWhole_succ hc hne, hstep, Machine.ok_bind]
      exact hok fuel (by omega)
    · cases fuel with
      | zero => exact startWhole_noFuel hc hne w
      | succ fuel =>
        rw [startWhole_succ hc hne, hstep, Machine.ok_bind]
        exact hfuel fuel (by omega)
    · rw [hmem, hview, hsrc₀, hdst₀, Memory.moves_succ]

/-- All addresses of the transfer are below `2 ^ 32` and in `A`. -/
def InRam (A : ℕ → Prop) (st : DmaStream) (size : ℕ) : Prop :=
  ∀ i < st.ndtr.toNat, ∀ j < size,
    (st.src.toNat + i * st.srcStep + j < 2 ^ 32 ∧ A (st.src.toNat + i * st.srcStep + j)) ∧
    (st.dst.toNat + i * st.dstStep + j < 2 ^ 32 ∧ A (st.dst.toNat + i * st.dstStep + j))

/-- **The loop moves the items in turn**, and as many as `NDTR` says: with less fuel it does not
    end. -/
theorem startWhole_transfers (hram : bus.IsRam view A) (hc : c < DMA_Stream_Count)
    (hsize : size = 1 ∨ size = 2) (hp : (s.stream c).psize = size) (hm : (s.stream c).msize = size)
    (haddr : InRam A (s.stream c) size) :
    ∃ t w',
      (∀ fuel, (s.stream c).ndtr.toNat ≤ fuel →
        streamStartWhole junk bus (BitVec.ofNat 32 (c + 1)) true fuel (s, w) = .ok (t, w')) ∧
      (∀ fuel < (s.stream c).ndtr.toNat,
        streamStartWhole junk bus (BitVec.ofNat 32 (c + 1)) true fuel (s, w) = .error .outOfFuel) ∧
      view w' = Memory.moves (view w) (s.stream c).src.toNat (s.stream c).srcStep
        (s.stream c).dst.toNat (s.stream c).dstStep size (s.stream c).ndtr.toNat ∧
      Transferred s t c (s.stream c).ndtr.toNat :=
  startWhole_isRam hram hc (by omega) hp hm rfl rfl rfl (fun _ => ⟨rfl, rfl⟩)
    (fun i hi j hj => (haddr i hi j hj).1) fun i hi j hj => (haddr i hi j hj).2

/-- Three bytes from a fixed address, in circular mode. -/
theorem startWhole_transfers_fixed : ∃ t mem,
    streamStartWhole (fun _ => 0) ram 1 true 3
      ({ init with stream := fun _ => ⟨0xa0, 3, 0x100, 0x200, 0, 0, 0, 0⟩ }, fun _ => 7) =
        .ok (t, mem) ∧ (t.stream 0).par = 0x100 ∧ (t.stream 0).mar = 0x203 ∧ t.isr = 2 := by
  obtain ⟨t, mem, hok, -, -, ht⟩ := @startWhole_transfers _ (fun _ => 0) ram id (fun _ => True)
    { init with stream := fun _ => ⟨0xa0, 3, 0x100, 0x200, 0, 0, 0, 0⟩ } (fun _ => 7) 0 1 ram_isRam
    (by decide) (.inl rfl) rfl rfl (by unfold InRam; decide)
  exact ⟨t, mem, hok 3 (by decide), ht.par, ht.mar, ht.isr⟩

end Stm32Dma

end Bluepill

/-
  Memory-to-memory transfers, from the writes to the registers of a stream to
  the contents of memory.

  The transfer runs inside the write to the control register and before the new
  value is stored, so its direction, increments and sizes are those of the value
  the register had before.

  * `startWhole_copy`: with the right old value, the loop copies;
  * `run_copyOps`: the four writes are the loop on the written registers;
  * `copies_iff`: the four writes copy, for all addresses, lengths and
    contents, exactly when the old value of the control register is right.
-/
import Bluepill.Dma
import Mathlib.Tactic.IntervalCases

namespace Bluepill

open Dma

namespace DmaStream

/-- The stream is set to move bytes from its peripheral address to its memory
    address, and to increment both. -/
structure MovesBytes (st : DmaStream) : Prop where
  dir : st.has DMA_CCR_DIR = false
  psize : st.psize = 1
  msize : st.msize = 1
  pinc : st.has DMA_CCR_PINC = true
  minc : st.has DMA_CCR_MINC = true

/-- The memory after an item, where `b` is the second byte of the buffer. -/
def moved (st : DmaStream) (b : BitVec 8) (mem : ℕ → BitVec 8) : ℕ → BitVec 8 :=
  Memory.put mem st.route.2.1.toNat
    ((Memory.get mem st.route.1.1.toNat st.route.1.2 ++ [b]).take st.route.2.2)

/-- Items of one byte. -/
theorem moved_byte (st : DmaStream) (hdir : st.has DMA_CCR_DIR = false) (hp : st.psize ≠ 0)
    (hm : st.msize = 1) (b : BitVec 8) (mem : ℕ → BitVec 8) :
    st.moved b mem = Function.update mem st.mar.toNat (mem st.par.toNat) := by
  have hroute : st.route = ((st.par, st.psize), (st.mar, 1)) := by
    rw [route, if_neg (by rw [hdir]; decide), hm]
  obtain ⟨n, hn⟩ := Nat.exists_eq_succ_of_ne_zero hp
  rw [moved, hroute, hn, Memory.get_succ, ← Memory.put_singleton]
  rfl

theorem advance_par (st : DmaStream) : st.advance.par =
    if st.has DMA_CCR_PINC then st.par + BitVec.ofNat 32 st.psize else st.par := rfl

theorem advance_mar (st : DmaStream) : st.advance.mar =
    if st.has DMA_CCR_MINC then st.mar + BitVec.ofNat 32 st.msize else st.mar := rfl

theorem MovesBytes.advance {st : DmaStream} (h : st.MovesBytes) :
    st.advance = { st with ndtr := st.ndtr - 1, par := st.par + 1, mar := st.mar + 1 } := by
  rw [DmaStream.advance, if_pos h.pinc, if_pos h.minc, h.psize, h.msize]; rfl

end DmaStream

namespace Stm32Dma

variable {junk : Stm32Dma → BitVec 8} {s : Stm32Dma} {c : ℕ}

/-! ## The loop -/

theorem streamNo_toNat (hc : c < DMA_Stream_Count) : (BitVec.ofNat 32 (c + 1) - 1).toNat = c := by
  unfold DMA_Stream_Count at hc
  interval_cases c <;> rfl

section

variable {ω : Type} {bus : Bus ω}

/-- An item, if the accesses to the bus succeed. -/
theorem startOnce_of (hc : c < DMA_Stream_Count) (hp : (s.stream c).psize ≠ 0)
    (hm : (s.stream c).msize ≠ 0) {skip : Bool}
    (hen : (skip || (s.stream c).has DMA_CCR_EN) = true) {w w₁ w₂ : ω} {buf : List (BitVec 8)}
    (hread : bus.read w (s.stream c).route.1.1.toNat (s.stream c).route.1.2 = .ok (buf, w₁))
    (hwrite : bus.write w₁ (s.stream c).route.2.1.toNat
      ((buf ++ [junk s]).take (s.stream c).route.2.2) = .ok w₂) :
    streamStartOnce junk bus s w (BitVec.ofNat 32 (c + 1)) skip = .ok (s.finish c, w₂) := by
  have hskip : ¬ (!skip && !(s.stream c).has DMA_CCR_EN) = true := by
    simpa [Bool.or_eq_true, or_iff_not_imp_left] using hen
  unfold streamStartOnce
  rw [streamNo_toNat hc]
  dsimp only
  rw [if_neg (not_not_intro hc), if_neg (not_or_intro hp hm), if_neg hskip, hread, Machine.ok_bind]
  dsimp only
  rw [hwrite, Machine.ok_bind]

theorem startWhole_zero (hc : c < DMA_Stream_Count) (h : (s.stream c).ndtr = 0) (fuel : ℕ) (w : ω) :
    streamStartWhole junk bus (BitVec.ofNat 32 (c + 1)) true fuel (s, w) = .ok (s, w) := by
  rw [streamStartWhole.eq_def]
  dsimp only
  rw [streamNo_toNat hc, if_pos h]

/-- An item of the loop. -/
theorem startWhole_succ (hc : c < DMA_Stream_Count) (h : (s.stream c).ndtr ≠ 0) (fuel : ℕ) (w : ω) :
    streamStartWhole junk bus (BitVec.ofNat 32 (c + 1)) true (fuel + 1) (s, w) =
      streamStartOnce junk bus s w (BitVec.ofNat 32 (c + 1)) true >>=
        streamStartWhole junk bus (BitVec.ofNat 32 (c + 1)) true fuel := by
  rw [streamStartWhole.eq_def]
  dsimp only
  rw [streamNo_toNat hc, if_neg h]

theorem startWhole_noFuel (hc : c < DMA_Stream_Count) (h : (s.stream c).ndtr ≠ 0) (w : ω) :
    streamStartWhole junk bus (BitVec.ofNat 32 (c + 1)) true 0 (s, w) = .error .outOfFuel := by
  rw [streamStartWhole.eq_def]
  dsimp only
  rw [streamNo_toNat hc, if_neg h]

/-- **The rule of the loop**: what holds at the start and is kept by the bookkeeping of every item
    holds at the end, where no item is left. -/
theorem startWhole_inv (hc : c < DMA_Stream_Count) {I : Stm32Dma → Prop}
    (hI : ∀ t, I t → (t.stream c).ndtr ≠ 0 → I (t.finish c)) {x : Stm32Dma × ω} {fuel : ℕ} :
    ∀ {s : Stm32Dma} {w : ω}, I s →
      streamStartWhole junk bus (BitVec.ofNat 32 (c + 1)) true fuel (s, w) = .ok x →
      I x.1 ∧ (x.1.stream c).ndtr = 0 := by
  induction fuel with
  | zero =>
    intro s w hs h
    by_cases hz : (s.stream c).ndtr = 0
    · rw [startWhole_zero hc hz] at h
      cases h
      exact ⟨hs, hz⟩
    · rw [startWhole_noFuel hc hz] at h
      cases h
  | succ fuel ih =>
    intro s w hs h
    by_cases hz : (s.stream c).ndtr = 0
    · rw [startWhole_zero hc hz] at h
      cases h
      exact ⟨hs, hz⟩
    · rw [startWhole_succ hc hz] at h
      obtain ⟨⟨t, w₁⟩, ht, h⟩ := Machine.bind_eq_ok.1 h
      have hitem := (streamStartOnce_ok ht).2
      rw [streamNo_toNat hc, Bool.true_or, if_pos rfl] at hitem
      refine ih ?_ h
      rw [show t = s.finish c from hitem]
      exact hI s hs hz

end

theorem startOnce_ram (hc : c < DMA_Stream_Count) (hp : (s.stream c).psize ≠ 0)
    (hm : (s.stream c).msize ≠ 0) (mem : ℕ → BitVec 8) :
    streamStartOnce junk ram s mem (BitVec.ofNat 32 (c + 1)) true =
      .ok (s.finish c, (s.stream c).moved (junk s) mem) :=
  startOnce_of hc hp hm rfl rfl rfl

/-- The end of a transfer. -/
theorem finish_last (h : (s.stream c).ndtr = 1) :
    ((s.finish c).stream c).ndtr = 0 ∧ (s.finish c).isr = s.isr ||| (DMA_ISR_TCIF <<< (c * 4)) := by
  have hz : (s.stream c).advance.ndtr = 0 := by
    rw [DmaStream.advance, h]; rfl
  rw [finish, if_pos hz]
  refine ⟨?_, rfl⟩
  show (setStream _ c _ |>.stream c).ndtr = 0
  rw [setStream_stream]
  unfold DmaStream.complete
  split <;> exact hz

theorem finish_more (h : (s.stream c).ndtr ≠ 1) :
    s.finish c = s.setStream c (s.stream c).advance := by
  have hz : (s.stream c).advance.ndtr ≠ 0 := by
    have hsub : (s.stream c).advance.ndtr = (s.stream c).ndtr - 1 := rfl
    rw [hsub]; bv_omega
  rw [finish, if_neg hz]

theorem finish_other (s : Stm32Dma) {j : ℕ} (hj : j ≠ c) : (s.finish c).stream j = s.stream j := by
  unfold finish
  dsimp only
  split <;> exact Function.update_of_ne hj _ _

/-- The end of a transfer changes neither the counter nor its saved value. -/
theorem complete_ndtr (st : DmaStream) :
    st.complete.ndtr = st.ndtr ∧ st.complete.circularNdtr = st.circularNdtr := by
  unfold DmaStream.complete
  split <;> exact ⟨rfl, rfl⟩

/-- An item is counted, and the saved value stays. -/
theorem finish_ndtr (s : Stm32Dma) (c : ℕ) : ((s.finish c).stream c).ndtr = (s.stream c).ndtr - 1 ∧
    ((s.finish c).stream c).circularNdtr = (s.stream c).circularNdtr := by
  obtain ⟨hn, hsaved⟩ := complete_ndtr (s.stream c).advance
  unfold finish
  dsimp only
  split
  · have hst := setStream_stream s c (s.stream c).advance.complete
    exact ⟨(congrArg DmaStream.ndtr hst).trans hn, (congrArg DmaStream.circularNdtr hst).trans hsaved⟩
  · rw [setStream_stream]
    exact ⟨rfl, rfl⟩

/-- The flag of a finished transfer. -/
def completed (s : Stm32Dma) (c : ℕ) : Bool := s.isr.getLsbD (4 * c + 1)

theorem completed_finish (hc : c < DMA_Stream_Count) (h : (s.stream c).ndtr = 1) :
    (s.finish c).completed c = true := by
  have hflag : (DMA_ISR_TCIF <<< (c * 4)).getLsbD (4 * c + 1) = true := by
    unfold DMA_Stream_Count at hc
    interval_cases c <;> rfl
  rw [completed, (finish_last h).2, BitVec.getLsbD_or, hflag, Bool.or_true]

/-- **The loop copies** when the stream is set to move bytes. -/
theorem startWhole_copy (hc : c < DMA_Stream_Count) {n : ℕ} :
    ∀ {s : Stm32Dma} {mem : ℕ → BitVec 8} {p m : ℕ}, (s.stream c).MovesBytes →
      (s.stream c).ndtr.toNat = n → (s.stream c).par.toNat = p → (s.stream c).mar.toNat = m →
      p + n ≤ 2 ^ 32 → m + n ≤ 2 ^ 32 → (p + n ≤ m ∨ m + n ≤ p) →
      ∃ s', streamStartWhole junk ram (BitVec.ofNat 32 (c + 1)) true n (s, mem) =
          .ok (s', Memory.copy mem p m n) ∧
        (s'.stream c).ndtr = 0 ∧ (n ≠ 0 → s'.completed c = true) := by
  induction n with
  | zero =>
    intro s mem p m _ hn _ _ _ _ _
    have hz : (s.stream c).ndtr = 0 := BitVec.eq_of_toNat_eq hn
    exact ⟨s, by rw [startWhole_zero hc hz, Memory.copy_zero], hz, fun h => absurd rfl h⟩
  | succ n ih =>
    intro s mem p m hs hn hp hm hpn hmn hdisj
    have hne : (s.stream c).ndtr ≠ 0 := by
      intro h; rw [h] at hn; simp at hn
    have hstep : streamStartOnce junk ram s mem (BitVec.ofNat 32 (c + 1)) true =
        .ok (s.finish c, Function.update mem m (mem p)) := by
      have hpsize : (s.stream c).psize ≠ 0 := by rw [hs.psize]; decide
      rw [startOnce_ram hc hpsize (by rw [hs.msize]; decide),
        DmaStream.moved_byte _ hs.dir hpsize hs.msize, hp, hm]
    rw [startWhole_succ hc hne, hstep, Machine.ok_bind, ← Memory.copy_succ mem (by omega)]
    by_cases hlast : (s.stream c).ndtr = 1
    · obtain rfl : n = 0 := by rw [hlast] at hn; simpa using hn
      obtain ⟨hz, -⟩ := finish_last hlast
      refine ⟨s.finish c, ?_, hz, fun _ => completed_finish hc hlast⟩
      rw [startWhole_zero hc hz, Memory.copy_zero]
    · have hst : (s.finish c).stream c =
          { s.stream c with
            ndtr := (s.stream c).ndtr - 1
            par := (s.stream c).par + 1
            mar := (s.stream c).mar + 1 } := by
        rw [finish_more hlast, hs.advance, setStream_stream]
      have hn' : n ≠ 0 := by
        rintro rfl; exact hlast (BitVec.eq_of_toNat_eq hn)
      have hmoves : ((s.finish c).stream c).MovesBytes := by
        rw [hst]; exact ⟨hs.dir, hs.psize, hs.msize, hs.pinc, hs.minc⟩
      obtain ⟨s', hs', hz, hflag⟩ := @ih (s.finish c) (Function.update mem m (mem p)) (p + 1) (m + 1)
        hmoves (by rw [hst]; bv_omega) (by rw [hst]; bv_omega) (by rw [hst]; bv_omega) (by omega)
        (by omega) (by omega)
      exact ⟨s', hs', hz, fun _ => hflag hn'⟩

/-! ## The writes -/

/-- `NDTR`, `PAR`, `MAR` and then the control register of the stream `c`. -/
def copyOps (now : BitVec 64) (c : ℕ) (k p m data : BitVec 32) : List (BitVec 64 × Op) :=
  [(now, .write (16 * c + 0x0c) (k.setWidth 64) 4), (now, .write (16 * c + 0x10) (p.setWidth 64) 4),
   (now, .write (16 * c + 0x14) (m.setWidth 64) 4), (now, .write (16 * c + 0x08) (data.setWidth 64) 4)]

/-- The stream `c` with its addresses and its length set. -/
def loaded (s : Stm32Dma) (c : ℕ) (k p m : BitVec 32) : Stm32Dma :=
  s.setStream c { s.stream c with
    ndtr := k, circularNdtr := k, par := p, circularPar := p, mar := m, circularMar := m }

/-- A value of the control register that starts a transfer of bytes from memory to
    memory. -/
structure MemToMem (data : BitVec 32) : Prop where
  en : data &&& DMA_CCR_EN ≠ 0
  mem2mem : data &&& DMA_CCR_MEM2MEM ≠ 0
  pinc : data &&& DMA_CCR_PINC ≠ 0
  minc : data &&& DMA_CCR_MINC ≠ 0
  dir : data &&& DMA_CCR_DIR = 0
  circ : data &&& DMA_CCR_CIRC = 0
  psize : data &&& DMA_CCR_PSIZE = 0
  msize : data &&& DMA_CCR_MSIZE = 0

/-- A write to a register of a stream. -/
theorem step_write (hc : c < DMA_Stream_Count) (reg : ℕ) {addr : ℕ} (haddr : addr = 16 * c + 0x08 + reg)
    (hreg : reg < 16) (h4 : reg % 4 = 0) (now : BitVec 64) (s : Stm32Dma) (mem : ℕ → BitVec 8)
    (v : BitVec 32) : step junk ram (s, mem) (now, .write addr (v.setWidth 64) 4) =
      streamWrite junk ram now s mem c reg v := by
  unfold DMA_Stream_Count at hc
  dsimp only [step]
  unfold write
  rw [if_neg (by decide), if_neg (by omega)]
  split
  · omega
  · omega
  · rw [if_pos (by unfold DMA_Reg_Total_Size; omega), Word.setWidth_setWidth_32]
    congr 1 <;> omega

/-- **The four writes are the loop on the written registers**, with the old value of
    the control register. -/
theorem run_copyOps (hc : c < DMA_Stream_Count) (hdis : (s.stream c).cr &&& DMA_CCR_EN = 0)
    {data : BitVec 32} (hen : data &&& DMA_CCR_EN ≠ 0) (hmem : data &&& DMA_CCR_MEM2MEM ≠ 0)
    (now : BitVec 64) (k p m : BitVec 32) (mem : ℕ → BitVec 8) :
    Machine.run (step junk ram) (s, mem) (copyOps now c k p m data) =
      (streamStartWhole junk ram (BitVec.ofNat 32 (c + 1)) true k.toNat (s.loaded c k p m, mem) >>=
        fun x => .ok (x.1.setStream c { x.1.stream c with cr := data }, x.2)) := by
  have hno : (s.stream c).has DMA_CCR_EN = false := by rw [DmaStream.has, hdis]; rfl
  have hndtr : ∀ v, step junk ram (s, mem) (now, .write (16 * c + 0x0c) (v.setWidth 64) 4) =
      .ok (s.setStream c { s.stream c with ndtr := v, circularNdtr := v }, mem) := fun v => by
    rw [step_write hc 0x04 (by omega) (by decide) (by decide), streamWrite]
    rw [if_neg (by rw [hno]; decide)]
  have hpar : ∀ (s : Stm32Dma) v,
      step junk ram (s, mem) (now, .write (16 * c + 0x10) (v.setWidth 64) 4) =
        .ok (s.setStream c { s.stream c with par := v, circularPar := v }, mem) := fun s v => by
    rw [step_write hc 0x08 (by omega) (by decide) (by decide)]; rfl
  have hmar : ∀ (s : Stm32Dma) v,
      step junk ram (s, mem) (now, .write (16 * c + 0x14) (v.setWidth 64) 4) =
        .ok (s.setStream c { s.stream c with mar := v, circularMar := v }, mem) := fun s v => by
    rw [step_write hc 0x0c (by omega) (by decide) (by decide)]; rfl
  have hcr : step junk ram (s.loaded c k p m, mem)
      (now, .write (16 * c + 0x08) (data.setWidth 64) 4) =
        enable junk ram now (s.loaded c k p m) mem c data >>= fun x =>
          .ok (x.1.setStream c { x.1.stream c with cr := data }, x.2) := by
    rw [step_write hc 0x00 (by omega) (by decide) (by decide)]; rfl
  have henable : enable junk ram now (s.loaded c k p m) mem c data =
      streamStartWhole junk ram (BitVec.ofNat 32 (c + 1)) true k.toNat (s.loaded c k p m, mem) := by
    have hst : (s.loaded c k p m).stream c = _ := setStream_stream _ _ _
    rw [enable, if_pos ⟨by rw [hst]; exact hdis, hen⟩, if_pos hmem, hst]
  rw [copyOps, Machine.run_cons, hndtr, Machine.ok_bind, Machine.run_cons, hpar, Machine.ok_bind,
    Machine.run_cons, hmar, Machine.ok_bind, Machine.run_cons]
  simp only [setStream_stream, setStream_setStream]
  exact (bind_pure _).trans (hcr.trans (by rw [henable]))

/-- The `k` bytes from `p` were copied to `m`: every other byte is as it was, nothing
    is left to transfer and the transfer is reported. -/
structure Copied (s : Stm32Dma) (c : ℕ) (mem mem' : ℕ → BitVec 8) (k p m : ℕ) : Prop where
  dest : ∀ i < k, mem' (m + i) = mem (p + i)
  other : ∀ a, a < m ∨ m + k ≤ a → mem' a = mem a
  ndtr : (s.stream c).ndtr = 0
  flag : 0 < k → s.completed c = true

/-- The four writes copy, for all disjoint ranges below `2 ^ 32`. -/
def Copies (junk : Stm32Dma → BitVec 8) (s : Stm32Dma) (c : ℕ) : Prop :=
  ∀ (now : BitVec 64) (k p m data : BitVec 32) (mem : ℕ → BitVec 8),
    p.toNat + k.toNat ≤ 2 ^ 32 → m.toNat + k.toNat ≤ 2 ^ 32 →
    (p.toNat + k.toNat ≤ m.toNat ∨ m.toNat + k.toNat ≤ p.toNat) → MemToMem data →
    ∃ s' mem', Machine.run (step junk ram) (s, mem) (copyOps now c k p m data) = .ok (s', mem') ∧
      Copied s' c mem mem' k.toNat p.toNat m.toNat

/-- The registers that were not written are those of before. -/
theorem loaded_stream (s : Stm32Dma) (c : ℕ) (k p m : BitVec 32) : (s.loaded c k p m).stream c =
    { s.stream c with
      ndtr := k, circularNdtr := k, par := p, circularPar := p, mar := m, circularMar := m } :=
  setStream_stream _ _ _

theorem copies_of_movesBytes (hc : c < DMA_Stream_Count)
    (hdis : (s.stream c).cr &&& DMA_CCR_EN = 0) (hs : (s.stream c).MovesBytes) : s.Copies junk c := by
  intro now k p m data mem hpk hmk hdisj hdata
  have hst := loaded_stream s c k p m
  have hmoves : ((s.loaded c k p m).stream c).MovesBytes := by
    rw [hst]; exact ⟨hs.dir, hs.psize, hs.msize, hs.pinc, hs.minc⟩
  obtain ⟨s', hs', hz, hflag⟩ : ∃ s', streamStartWhole junk ram (BitVec.ofNat 32 (c + 1)) true k.toNat
      (s.loaded c k p m, mem) = .ok (s', Memory.copy mem p.toNat m.toNat k.toNat) ∧
        (s'.stream c).ndtr = 0 ∧ (k.toNat ≠ 0 → s'.completed c = true) :=
    startWhole_copy hc hmoves (by rw [hst]) (by rw [hst]) (by rw [hst]) hpk hmk hdisj
  rw [run_copyOps hc hdis hdata.en hdata.mem2mem, hs', Machine.ok_bind]
  refine ⟨_, _, rfl, fun i hi => Memory.copy_dest mem hi, fun a ha => Memory.copy_other mem ha, ?_, ?_⟩
  · rw [setStream_stream]; exact hz
  · intro hk; exact hflag (Nat.pos_iff_ne_zero.1 hk)

/-! ## The old control register -/

/-- The bytes `0 .. k - 1` copied to `16 .. 16 + k - 1`. -/
theorem Copies.loop (h : s.Copies junk c) (hc : c < DMA_Stream_Count)
    (hdis : (s.stream c).cr &&& DMA_CCR_EN = 0) {k : BitVec 32} (hk : k.toNat ≤ 16)
    (mem : ℕ → BitVec 8) : ∃ x,
      streamStartWhole junk ram (BitVec.ofNat 32 (c + 1)) true k.toNat (s.loaded c k 0 16, mem) = .ok x ∧
      (∀ i < k.toNat, x.2 (16 + i) = mem i) ∧ ∀ a, 16 + k.toNat ≤ a → x.2 a = mem a := by
  have hdata : MemToMem 0x40c1 := by constructor <;> decide
  obtain ⟨s', mem', hrun, hcopied⟩ := h 0 k 0 16 0x40c1 mem (by simp; omega) (by simp; omega)
    (by simp; omega) hdata
  rw [run_copyOps hc hdis hdata.en hdata.mem2mem] at hrun
  obtain ⟨x, hx, hret⟩ := Machine.bind_eq_ok.1 hrun
  cases hret
  refine ⟨x, hx, fun i hi => ?_, fun a ha => hcopied.other a (Or.inr ha)⟩
  simpa using hcopied.dest i hi

theorem startOnce_size (hc : c < DMA_Stream_Count)
    (h : (s.stream c).psize = 0 ∨ (s.stream c).msize = 0) (mem : ℕ → BitVec 8) :
    streamStartOnce junk ram s mem (BitVec.ofNat 32 (c + 1)) true =
      .error (.hwError "Error: Halfword is NOT implemented or invalid size!\n") := by
  unfold streamStartOnce
  rw [streamNo_toNat hc]
  dsimp only
  rw [if_neg (not_not_intro hc), if_pos h]

/-- A loop of one item. -/
theorem startWhole_one (hc : c < DMA_Stream_Count) (hp : (s.stream c).psize ≠ 0)
    (hm : (s.stream c).msize ≠ 0) (h : (s.stream c).ndtr = 1) (mem : ℕ → BitVec 8) :
    streamStartWhole junk ram (BitVec.ofNat 32 (c + 1)) true 1 (s, mem) =
      .ok (s.finish c, (s.stream c).moved (junk s) mem) := by
  rw [startWhole_succ hc (by rw [h]; decide), startOnce_ram hc hp hm, Machine.ok_bind,
    startWhole_zero hc (finish_last h).1]

/-- A loop of two items. -/
theorem startWhole_two (hc : c < DMA_Stream_Count) (hp : (s.stream c).psize ≠ 0)
    (hm : (s.stream c).msize ≠ 0) (h : (s.stream c).ndtr = 2) (mem : ℕ → BitVec 8) : ∃ t b b',
    streamStartWhole junk ram (BitVec.ofNat 32 (c + 1)) true 2 (s, mem) =
      .ok (t, (s.stream c).advance.moved b' ((s.stream c).moved b mem)) := by
  rw [startWhole_succ hc (by rw [h]; decide), startOnce_ram hc hp hm, Machine.ok_bind,
    finish_more (by rw [h]; decide)]
  have hst : (s.setStream c (s.stream c).advance).stream c = (s.stream c).advance :=
    setStream_stream _ _ _
  rw [startWhole_one hc (by rw [hst]; exact hp) (by rw [hst]; exact hm) (by rw [hst, DmaStream.advance, h]; rfl),
    hst]
  exact ⟨_, _, _, rfl⟩

theorem msizeTable_cases (i : BitVec 32) : msizeTable i = 0 ∨ msizeTable i = 1 ∨ msizeTable i = 2 := by
  unfold msizeTable
  rcases i.toNat with _ | _ | _ | _ | n <;> simp

section

variable (h : s.Copies junk c) (hc : c < DMA_Stream_Count)
  (hdis : (s.stream c).cr &&& DMA_CCR_EN = 0)
include h hc hdis

/-- A size of `0` would end the first transfer. -/
theorem Copies.sizes : (s.stream c).psize ≠ 0 ∧ (s.stream c).msize ≠ 0 := by
  obtain ⟨x, hx, -⟩ := h.loop (k := 1) hc hdis (by decide) fun _ => 0
  have hst := loaded_stream s c 1 0 16
  have hne : ((s.loaded c 1 0 16).stream c).ndtr ≠ 0 := by rw [hst]; exact (by decide : (1 : BitVec 32) ≠ 0)
  refine not_or.1 fun hzero => ?_
  rw [show (1 : BitVec 32).toNat = 0 + 1 from rfl, startWhole_succ hc hne,
    startOnce_size hc (by rw [hst]; exact hzero)] at hx
  cases hx

/-- What one item does to memory. -/
theorem Copies.one (mem : ℕ → BitVec 8) :
    ((s.loaded c 1 0 16).stream c).moved (junk (s.loaded c 1 0 16)) mem 16 = mem 0 ∧
    ∀ a, 17 ≤ a → ((s.loaded c 1 0 16).stream c).moved (junk (s.loaded c 1 0 16)) mem a = mem a := by
  obtain ⟨x, hx, hdest, hother⟩ := h.loop (k := 1) hc hdis (by decide) mem
  obtain ⟨hp, hm⟩ := h.sizes hc hdis
  have hst := loaded_stream s c 1 0 16
  rw [show (1 : BitVec 32).toNat = 1 from rfl, startWhole_one hc (by rw [hst]; exact hp)
    (by rw [hst]; exact hm) (by rw [hst])] at hx
  cases hx
  exact ⟨hdest 0 (by decide), hother⟩

/-- In the other direction, the destination would stay as it is. -/
theorem Copies.dir : (s.stream c).has DMA_CCR_DIR = false := by
  by_contra hdir
  rw [Bool.not_eq_false] at hdir
  obtain ⟨hone, -⟩ := h.one hc hdis fun a => if a = 0 then 1 else 0
  have hst := loaded_stream s c 1 0 16
  have hroute : ((s.loaded c 1 0 16).stream c).route =
      ((16, (s.stream c).msize), (0, (s.stream c).psize)) := by
    rw [hst]; exact if_pos hdir
  have hp : (s.stream c).psize ≤ 2 := by
    rcases msizeTable_cases (((s.stream c).cr >>> 8) &&& 0x3) with hn | hn | hn <;>
      · rw [DmaStream.psize]; omega
  rw [DmaStream.moved, hroute, Memory.put_apply_of_le _ _ (Or.inr (by simp; omega))] at hone
  exact absurd hone (by decide)

/-- Two bytes at a time would change the byte behind the destination. -/
theorem Copies.msize : (s.stream c).msize = 1 := by
  obtain ⟨hp, hm⟩ := h.sizes hc hdis
  have hst := loaded_stream s c 1 0 16
  have hdir := h.dir hc hdis
  have hroute : ((s.loaded c 1 0 16).stream c).route =
      ((0, (s.stream c).psize), (16, (s.stream c).msize)) := by
    rw [hst]; exact if_neg (by rw [Bool.not_eq_true]; exact hdir)
  rcases msizeTable_cases (((s.stream c).cr >>> 10) &&& 0x3) with h₀ | h₁ | h₂
  · exact absurd h₀ hm
  · exact h₁
  · generalize hb : junk (s.loaded c 1 0 16) = b
    obtain ⟨-, hother⟩ := h.one hc hdis fun a => if a = 17 then b + 1 else b
    have h17 := hother 17 le_rfl
    rw [hb, DmaStream.moved, hroute, show (s.stream c).msize = 2 from h₂] at h17
    have hb' : b = b + 1 := by
      rcases msizeTable_cases (((s.stream c).cr >>> 8) &&& 0x3) with h₀ | h₁ | h₂'
      · exact absurd h₀ hp
      · rw [show (s.stream c).psize = 1 from h₁] at h17; exact h17
      · rw [show (s.stream c).psize = 2 from h₂'] at h17; exact h17
    exact absurd hb' (by bv_omega)

/-- What two items do to the second byte. -/
theorem Copies.two (mem : ℕ → BitVec 8) :
    Function.update (Function.update mem 16 (mem 0)) (if (s.stream c).has DMA_CCR_MINC then 17 else 16)
      (Function.update mem 16 (mem 0) (if (s.stream c).has DMA_CCR_PINC then (s.stream c).psize else 0))
      17 = mem 1 := by
  obtain ⟨x, hx, hdest, -⟩ := h.loop (k := 2) hc hdis (by decide) mem
  obtain ⟨hp, hm⟩ := h.sizes hc hdis
  have hdir := h.dir hc hdis
  have hm₁ := h.msize hc hdis
  have hst := loaded_stream s c 2 0 16
  obtain ⟨t, b, b', htwo⟩ : ∃ t b b', streamStartWhole junk ram (BitVec.ofNat 32 (c + 1)) true 2
      (s.loaded c 2 0 16, mem) = .ok (t, ((s.loaded c 2 0 16).stream c).advance.moved b'
        (((s.loaded c 2 0 16).stream c).moved b mem)) :=
    startWhole_two hc (by rw [hst]; exact hp) (by rw [hst]; exact hm) (by rw [hst]) mem
  generalize hL : (s.loaded c 2 0 16).stream c = L at hst htwo
  have hdir' : L.has DMA_CCR_DIR = false := by rw [hst]; exact hdir
  have hp' : L.psize = (s.stream c).psize := by rw [hst]; rfl
  have hm' : L.msize = 1 := by rw [hst]; exact hm₁
  have hmar : L.advance.mar.toNat = if (s.stream c).has DMA_CCR_MINC then 17 else 16 := by
    have hminc : L.has DMA_CCR_MINC = (s.stream c).has DMA_CCR_MINC := by rw [hst]; rfl
    rw [DmaStream.advance_mar, hminc, hm', show L.mar = 16 by rw [hst]]
    split <;> rfl
  have hpar : L.advance.par.toNat = if (s.stream c).has DMA_CCR_PINC then (s.stream c).psize else 0 := by
    have hpinc : L.has DMA_CCR_PINC = (s.stream c).has DMA_CCR_PINC := by rw [hst]; rfl
    rw [DmaStream.advance_par, hpinc, hp', show L.par = 0 by rw [hst]]
    split
    · rcases msizeTable_cases (((s.stream c).cr >>> 8) &&& 0x3) with hn | hn | hn <;>
        · rw [DmaStream.psize, hn]; rfl
    · rfl
  have hmar₀ : L.mar.toNat = 16 := by rw [hst]; rfl
  have hpar₀ : L.par.toNat = 0 := by rw [hst]; rfl
  rw [L.advance.moved_byte hdir' (by rw [← hp'] at hp; exact hp) hm', hmar, hpar,
    L.moved_byte hdir' (by rw [hp']; exact hp) hm', hmar₀, hpar₀] at htwo
  rw [show (2 : BitVec 32).toNat = 2 from rfl, htwo] at hx
  cases hx
  exact hdest 1 (by decide)

/-- The second byte comes from behind the first and goes behind the first. -/
theorem Copies.increments : (s.stream c).has DMA_CCR_PINC = true ∧ (s.stream c).psize = 1 ∧
    (s.stream c).has DMA_CCR_MINC = true := by
  have htwo := h.two hc hdis fun a => if a = 1 then 1 else 0
  have hminc : (s.stream c).has DMA_CCR_MINC = true := by
    by_contra hminc
    simp [hminc] at htwo
  rw [if_pos hminc, Function.update_self] at htwo
  have hpar : (if (s.stream c).has DMA_CCR_PINC then (s.stream c).psize else 0) = 1 := by
    by_contra hne
    simp [Function.update_apply, hne] at htwo
  split at hpar
  · next hpinc => exact ⟨hpinc, hpar, hminc⟩
  · cases hpar

end

/-- **The four writes copy exactly when the old value of the control register moves
    bytes.** -/
theorem copies_iff (hc : c < DMA_Stream_Count) (hdis : (s.stream c).cr &&& DMA_CCR_EN = 0) :
    s.Copies junk c ↔ (s.stream c).MovesBytes := by
  refine ⟨fun h => ?_, copies_of_movesBytes hc hdis⟩
  obtain ⟨hpinc, hpsize, hminc⟩ := h.increments hc hdis
  exact ⟨h.dir hc hdis, hpsize, h.msize hc hdis, hpinc, hminc⟩

/-- The first stream, with its increments set by an earlier write. -/
theorem copies_iff_configured : ∃ x,
    Machine.run (step (fun _ => 0) ram) (init.reset, fun _ => 0) [(0, .write 0x08 0x00c0 4)] = .ok x ∧
    x.1.Copies (fun _ => 0) 0 :=
  ⟨_, rfl, (copies_iff (by decide) (by decide)).2 ⟨rfl, rfl, rfl, rfl, rfl⟩⟩

/-- After a reset, the first stream moves the first byte twice to the same place. -/
theorem not_copies_reset : MemToMem 0x40c1 ∧
    (∃ x, Machine.run (step (fun _ => 0) ram) (init.reset, fun a => if a = 1 then 1 else 0)
      (copyOps 0 0 2 0 16 0x40c1) = .ok x ∧ x.2 17 = 0) ∧ ¬ init.reset.Copies (fun _ => 0) 0 := by
  have hdata : MemToMem 0x40c1 := by constructor <;> decide
  refine ⟨hdata, ⟨_, rfl, rfl⟩, fun h => ?_⟩
  exact absurd (h.increments (by decide) (by decide)).1 (by decide)

end Stm32Dma

end Bluepill

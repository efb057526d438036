/-
  Which channel the firmware reaches.

  The firmware's header places the registers of channel `n` twenty bytes after those of
  channel `n - 1`, the device sixteen bytes: the two maps agree for the first channel only
  (`registerMap_iff`).

  A request of the first USART is served by the channel that has the address of its data
  register.  For a request to receive the device looks for it among the memory addresses,
  where the channel that was set up for it has a buffer: it is served only if its memory
  address is the data register as well (`usart1_rx_iff`).
-/
import Bluepill.Dma.Flags

namespace Bluepill

open Dma

namespace Stm32Dma

variable {ω : Type} {junk : Stm32Dma → BitVec 8} {bus : Bus ω} {s : Stm32Dma} {w : ω} {c : ℕ}
  {now : BitVec 64}

/-! ## The register map -/

/-- The register of a stream with the offset `r`. -/
def regOf (st : DmaStream) (r : ℕ) : BitVec 32 :=
  match r with
  | 0 => st.cr
  | 4 => st.ndtr
  | 8 => st.par
  | 12 => st.mar
  | _ => 0

/-- The address of a register of channel `n`, numbered from `1` on, relative to `DMA1_BASE`:
    `DMA1_Channeln_BASE` is twenty bytes after that of the channel before. -/
def firmwareAddr (n r : ℕ) : ℕ := 8 + 20 * (n - 1) + r

/-- A register of channel `n`, while the channel is disabled: a write at the firmware's
    address stores the value in the register of the stream and leaves the other streams
    alone, and a read there is accepted.  The value does not enable the channel. -/
def MapsTo (n r : ℕ) : Prop :=
  ∀ (ω : Type) (junk : Stm32Dma → BitVec 8) (bus : Bus ω) (now : BitVec 64) (s : Stm32Dma) (w : ω)
    (v : BitVec 32), (s.stream (n - 1)).has DMA_CCR_EN = false → (r = 0 → v &&& DMA_CCR_EN = 0) →
    (∃ x, write junk bus now s w (firmwareAddr n r) (v.setWidth 64) 4 = .ok x ∧
      regOf (x.1.stream (n - 1)) r = v ∧ ∀ j, j ≠ n - 1 → x.1.stream j = s.stream j) ∧
    ∃ d, s.read (firmwareAddr n r) 4 = .ok d

/-- A write to a register of a disabled stream. -/
theorem streamWrite_disabled {r : ℕ} {v : BitVec 32} (hr : r ∈ [0, 4, 8, 12])
    (hs : (s.stream c).has DMA_CCR_EN = false) (hv : r = 0 → v &&& DMA_CCR_EN = 0) :
    ∃ st, regOf st r = v ∧ streamWrite junk bus now s w c r v = .ok (s.setStream c st, w) := by
  simp only [List.mem_cons, List.not_mem_nil, or_false] at hr
  rcases hr with rfl | rfl | rfl | rfl
  · have hno : enable junk bus now s w c v = .ok (s, w) := if_neg fun h => h.2 (hv rfl)
    refine ⟨{ s.stream c with cr := v }, rfl, ?_⟩
    rw [streamWrite, hno]
    rfl
  · exact ⟨{ s.stream c with ndtr := v, circularNdtr := v }, rfl, if_neg (by simp [hs])⟩
  · exact ⟨{ s.stream c with par := v, circularPar := v }, rfl, rfl⟩
  · exact ⟨{ s.stream c with mar := v, circularMar := v }, rfl, rfl⟩

/-- The registers of the first channel are where the firmware has them. -/
theorem mapsTo_one {r : ℕ} (hr : r ∈ [0, 4, 8, 12]) : MapsTo 1 r := by
  intro ω junk bus now s w v hs hv
  obtain ⟨st, hreg, hw⟩ : ∃ st, regOf st r = v ∧
      streamWrite junk bus now s w 0 r v = .ok (s.setStream 0 st, w) := streamWrite_disabled hr hs hv
  have hv32 : (v.setWidth 64).setWidth 32 = v := Word.setWidth_setWidth_32 v
  simp only [List.mem_cons, List.not_mem_nil, or_false] at hr
  refine ⟨⟨(s.setStream 0 st, w), ?_, ?_, fun j hj => Function.update_of_ne hj _ _⟩, ?_⟩
  · rcases hr with rfl | rfl | rfl | rfl
    all_goals
      rw [← hv32] at hw
      exact hw
  · rw [setStream_stream]
    exact hreg
  · rcases hr with rfl | rfl | rfl | rfl
    all_goals exact ⟨_, rfl⟩

/-- The registers of the others are not. -/
theorem not_mapsTo {n r : ℕ} (hn : n ∈ [2, 3, 4, 5, 6, 7]) (hr : r ∈ [0, 4, 8, 12]) : ¬ MapsTo n r := by
  intro h
  have hoff : (init.stream (n - 1)).has DMA_CCR_EN = false := by simp [DmaStream.has, init]
  have hv : (0x10#32) &&& DMA_CCR_EN = 0 := by decide
  obtain ⟨⟨x, hx, hreg, -⟩, -⟩ := h _ (fun _ => 0) ram 0 init (fun _ => 0) 0x10#32 hoff fun _ => hv
  have hother : ∀ n ∈ [2, 3, 4, 5, 6, 7], ∀ r ∈ [0, 4, 8, 12], Machine.Post
      (fun x => regOf (x.1.stream (n - 1)) r ≠ 0x10) (fun _ => True)
      (write (fun _ => 0) ram 0 init (fun _ => 0) (firmwareAddr n r) ((0x10#32).setWidth 64) 4) := by
    decide +kernel
  have hpost := hother n hn r hr
  rw [hx] at hpost
  exact hpost hreg

/-- **When the register maps of firmware and device agree.** -/
theorem registerMap_iff {n r : ℕ} (hn : 1 ≤ n ∧ n ≤ 7) (hr : r ∈ [0, 4, 8, 12]) : MapsTo n r ↔ n = 1 := by
  constructor
  · intro h
    by_contra hne
    refine not_mapsTo ?_ hr h
    simp only [List.mem_cons, List.not_mem_nil, or_false]
    omega
  · rintro rfl
    exact mapsTo_one hr

/-- The memory address of the first channel. -/
theorem registerMap_iff_mar : MapsTo 1 12 :=
  (registerMap_iff (n := 1) (r := 12) (by decide) (by decide)).2 rfl

/-- The control register of the second channel: the value goes to the counter of its stream. -/
theorem not_registerMap_ccr2 : ∃ x,
    Stm32Dma.write (fun _ => 0) ram 0 Stm32Dma.init (fun _ => 0) (firmwareAddr 2 0) 0x10 4 = .ok x ∧
    (x.1.stream 1).cr = 0 ∧ (x.1.stream 1).ndtr = 0x10 ∧ ¬ MapsTo 2 0 :=
  ⟨_, rfl, rfl, rfl, not_mapsTo (by decide) (by decide)⟩

/-! ## Requests of the first USART -/

/-- The data register of the first USART. -/
def USART1_DR : BitVec 32 := 0x40013804

theorem findChannel_iff {a : BitVec 32} :
    s.findChannel a true = some (c + 1) ↔
      c < DMA_Stream_Count ∧ (s.stream c).mar = a ∧ ∀ j < c, (s.stream j).mar ≠ a := by
  unfold findChannel
  simp only [if_true, Option.map_eq_some_iff, Nat.add_right_cancel_iff, exists_eq_right,
    List.find?_range_eq_some, List.mem_range, decide_eq_true_iff]
  constructor
  · rintro ⟨hmar, hc, hfirst⟩
    exact ⟨hc, hmar, fun j hj => by simpa using hfirst j hj⟩
  · rintro ⟨hc, hmar, hfirst⟩
    exact ⟨hmar, hc, fun j hj => by simpa using hfirst j hj⟩

/-- One transfer on channel `c`: an item is read at its peripheral address and written at its
    memory address, its counter goes down, and no other channel changes. -/
def Serves (bus : Bus ω) (s : Stm32Dma) (w : ω) (c : ℕ) (x : Stm32Dma × ω) : Prop :=
  ∃ item w₁, bus.read w (s.stream c).par.toNat 1 = .ok (item, w₁) ∧
    bus.write w₁ (s.stream c).mar.toNat item = .ok x.2 ∧
    (x.1.stream c).ndtr = (s.stream c).ndtr - 1 ∧ ∀ j, j ≠ c → x.1.stream j = s.stream j

/-- A transfer of a byte to memory. -/
theorem startOnce_serves (hc : c < DMA_Stream_Count) (hen : (s.stream c).has DMA_CCR_EN = true)
    (hdir : (s.stream c).has DMA_CCR_DIR = false) (hp : (s.stream c).psize = 1)
    (hm : (s.stream c).msize = 1) {b : BitVec 8} {w₁ w₂ : ω}
    (hread : bus.read w (s.stream c).par.toNat 1 = .ok ([b], w₁))
    (hwrite : bus.write w₁ (s.stream c).mar.toNat [b] = .ok w₂) :
    streamStartOnce junk bus s w (BitVec.ofNat 32 (c + 1)) false = .ok (s.finish c, w₂) := by
  have hroute : (s.stream c).route = (((s.stream c).par, 1), ((s.stream c).mar, 1)) := by
    rw [DmaStream.route, hdir, hp, hm]
    rfl
  have hread' : bus.read w (s.stream c).route.1.1.toNat (s.stream c).route.1.2 = .ok ([b], w₁) := by
    rw [hroute]
    exact hread
  have hwrite' : bus.write w₁ (s.stream c).route.2.1.toNat
      (([b] ++ [junk s]).take (s.stream c).route.2.2) = .ok w₂ := by
    rw [hroute]
    exact hwrite
  exact startOnce_of hc (by rw [hp]; decide) (by rw [hm]; decide)
    (by rw [hen, Bool.or_true]) hread' hwrite'

/-- **When a request to receive is served by the channel that is set up for it.**  Channel `c`
    is the only one enabled; it moves bytes from the data register of the first USART. -/
theorem usart1_rx_iff {ω : Type} {junk : Stm32Dma → BitVec 8} {bus : Bus ω} {s : Stm32Dma}
    {w w₁ w₂ : ω} {c : ℕ} {b : BitVec 8} (hc : c < DMA_Stream_Count)
    (hen : ∀ j < DMA_Stream_Count, (s.stream j).has DMA_CCR_EN = true ↔ j = c)
    (hdir : (s.stream c).has DMA_CCR_DIR = false) (hpar : (s.stream c).par = USART1_DR)
    (hsize : (s.stream c).psize = 1 ∧ (s.stream c).msize = 1)
    (hread : bus.read w USART1_DR.toNat 1 = .ok ([b], w₁))
    (hwrite : bus.write w₁ (s.stream c).mar.toNat [b] = .ok w₂) :
    (∃ x, s.irqHandler junk bus w 0x10 = .ok x ∧ Serves bus s w c x) ↔
      (s.stream c).mar = USART1_DR ∧ ∀ j < c, (s.stream j).mar ≠ USART1_DR := by
  rw [← hpar] at hread
  have hone : streamStartOnce junk bus s w (BitVec.ofNat 32 (c + 1)) false = .ok (s.finish c, w₂) :=
    startOnce_serves hc ((hen c hc).2 rfl) hdir hsize.1 hsize.2 hread hwrite
  constructor
  · rintro ⟨x, hx, item, w₁', -, -, hndtr, -⟩
    rcases irqHandler_ok hx with ⟨hnone, hsame⟩ | ⟨c', hc', hfind, hx⟩
    · rw [hsame] at hndtr
      exact absurd hndtr (by bv_omega)
    · obtain ⟨-, hx⟩ := streamStartOnce_ok hx
      rw [streamNo_toNat hc'] at hx
      by_cases hcc : c' = c
      · subst hcc
        exact (findChannel_iff.1 hfind).2
      · -- another channel is found: it is disabled, and nothing is moved
        have hoff : ¬ (s.stream c').has DMA_CCR_EN = true := fun h => hcc ((hen c' hc').1 h)
        rw [if_neg (by simpa using hoff)] at hx
        rw [hx] at hndtr
        exact absurd hndtr (by bv_omega)
  · intro hfirst
    have hfind : s.findChannel (0x40013800 + 0x04) true = some (c + 1) := findChannel_iff.2 ⟨hc, hfirst⟩
    refine ⟨(s.finish c, w₂), ?_, [b], w₁, hread, hwrite, (finish_ndtr s c).1, fun j hj => finish_other s hj⟩
    unfold irqHandler
    simp only [hfind]
    exact hone

/-- The first channel is set up to receive, with the memory address `mar`. -/
def receiving (mar : BitVec 32) : Stm32Dma :=
  init.setStream 0 { init.stream 0 with cr := DMA_CCR_EN, ndtr := 3, par := USART1_DR, mar }

/-- A channel that copies the data register to itself. -/
theorem usart1_rx_iff_self : ∃ x : Stm32Dma × (ℕ → BitVec 8),
    irqHandler (fun _ => 0) ram (receiving USART1_DR) (fun _ => 7) 0x10 = .ok x ∧
      Serves ram (receiving USART1_DR) (fun _ => 7) 0 x :=
  (@usart1_rx_iff _ (fun _ => 0) ram _ _ _ _ 0 _ (by decide) (by decide) (by decide) rfl
    (by decide) rfl rfl).2 ⟨rfl, fun _ hj => absurd hj (Nat.not_lt_zero _)⟩

/-- A channel that receives to a buffer in memory is not found, and the emulation stops. -/
theorem not_usart1_rx_buffer :
    (∀ j < DMA_Stream_Count, ((receiving 0x20000000).stream j).has DMA_CCR_EN = true ↔ j = 0) ∧
    irqHandler (fun _ => 0) ram (receiving 0x20000000) (fun _ => 7) 0x10 =
      .error (.hwError "Cant Find channel for USART1 RX\n") :=
  ⟨by decide, rfl⟩

end Stm32Dma

end Bluepill

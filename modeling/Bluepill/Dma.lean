/-
  The DMA controller (`hw/arm/stm32_dma.c`).

  Memory is reached through a `Bus`, of which `ram` is the case where every
  address is memory.  The buffer of a transfer has two bytes and is not
  initialized; of these only the second can be used without having been read,
  and what it holds is a parameter (`junk`).

  Streams are numbered from `1` on in `start_once` and `start_whole`, and from
  `0` on elsewhere, as in the source.
-/
import Bluepill.Lib.Memory
import Bluepill.Qemu

namespace Bluepill

/-- `cpu_physical_memory_read` and `cpu_physical_memory_write`. -/
structure Bus (ω : Type) where
  read : ω → ℕ → ℕ → Except Fault (List (BitVec 8) × ω)
  write : ω → ℕ → List (BitVec 8) → Except Fault ω

def ram : Bus (ℕ → BitVec 8) where
  read mem a n := .ok (Memory.get mem a n, mem)
  write mem a l := .ok (Memory.put mem a l)

/-- A number as `printf` writes it in hexadecimal, with at least `width` digits. -/
def hex (width n : ℕ) : String :=
  let digits := Nat.toDigits 16 n
  String.ofList (List.replicate (width - digits.length) '0' ++ digits)

/-- `struct stm32_dma_stream`; of the interrupt, the number of pulses. -/
structure DmaStream where
  cr : BitVec 32
  ndtr : BitVec 32
  par : BitVec 32
  mar : BitVec 32
  circularPar : BitVec 32
  circularMar : BitVec 32
  circularNdtr : BitVec 32
  irqPulses : ℕ

/-- `struct stm32_dma`. -/
structure Stm32Dma where
  circularTimer : Option (BitVec 64)
  chanCircularMode : BitVec 32
  isr : BitVec 32
  ifcr : BitVec 32
  stream : ℕ → DmaStream

namespace Dma

def DMA_Stream_Count : ℕ := 8
def DMA_Reg_Total_Size : ℕ := 136
def R_DMA_MAX : ℕ := 52
def DMA_Circular_delay : BitVec 64 := 1000000

def DMA_ISR_TCIF : BitVec 32 := 0x0002

def DMA_CCR_EN : BitVec 32 := 0x0001
def DMA_CCR_TCIE : BitVec 32 := 0x0002
def DMA_CCR_DIR : BitVec 32 := 0x0010
def DMA_CCR_CIRC : BitVec 32 := 0x0020
def DMA_CCR_PINC : BitVec 32 := 0x0040
def DMA_CCR_MINC : BitVec 32 := 0x0080
def DMA_CCR_PSIZE : BitVec 32 := 0x0300
def DMA_CCR_MSIZE : BitVec 32 := 0x0c00
def DMA_CCR_MEM2MEM : BitVec 32 := 0x4000

/-- `msize_table`, in bytes. -/
def msizeTable (i : BitVec 32) : ℕ := [1, 0, 2, 0].getD i.toNat 0

end Dma

open Dma

namespace DmaStream

/-- A flag of the control register. -/
def has (st : DmaStream) (mask : BitVec 32) : Bool := st.cr &&& mask != 0

def psize (st : DmaStream) : ℕ := msizeTable ((st.cr >>> 8) &&& 0x3)

def msize (st : DmaStream) : ℕ := msizeTable ((st.cr >>> 10) &&& 0x3)

/-- Source and destination of the next item, with their sizes. -/
def route (st : DmaStream) : (BitVec 32 × ℕ) × (BitVec 32 × ℕ) :=
  if st.has DMA_CCR_DIR then ((st.mar, st.msize), (st.par, st.psize))
  else ((st.par, st.psize), (st.mar, st.msize))

/-- The registers after an item. -/
def advance (st : DmaStream) : DmaStream :=
  { st with
    ndtr := st.ndtr - 1
    par := if st.has DMA_CCR_PINC then st.par + BitVec.ofNat 32 st.psize else st.par
    mar := if st.has DMA_CCR_MINC then st.mar + BitVec.ofNat 32 st.msize else st.mar }

/-- The end of a transfer: except in circular mode, the stream is disabled, and
    interrupts if it may. -/
def complete (st : DmaStream) : DmaStream :=
  if st.has DMA_CCR_CIRC then st
  else { st with
    cr := st.cr &&& ~~~ DMA_CCR_EN
    irqPulses := if st.has DMA_CCR_TCIE then st.irqPulses + 1 else st.irqPulses }

end DmaStream

namespace Stm32Dma

variable {ω : Type} (junk : Stm32Dma → BitVec 8) (bus : Bus ω)

/-- The state as allocated. -/
def init : Stm32Dma where
  circularTimer := none
  chanCircularMode := 0
  isr := 0
  ifcr := 0
  stream _ := ⟨0, 0, 0, 0, 0, 0, 0, 0⟩

def setStream (s : Stm32Dma) (i : ℕ) (st : DmaStream) : Stm32Dma :=
  { s with stream := Function.update s.stream i st }

@[simp] theorem setStream_stream (s : Stm32Dma) (i : ℕ) (st : DmaStream) :
    (s.setStream i st).stream i = st := by
  simp [setStream]

@[simp] theorem setStream_setStream (s : Stm32Dma) (i : ℕ) (st st' : DmaStream) :
    (s.setStream i st).setStream i st' = s.setStream i st' := by
  simp [setStream]

/-- The bookkeeping of `stm32_dma_stream_start_once` after the item was moved. -/
def finish (s : Stm32Dma) (i : ℕ) : Stm32Dma :=
  let st := (s.stream i).advance
  if st.ndtr = 0 then
    { s.setStream i st.complete with isr := s.isr ||| (DMA_ISR_TCIF <<< (i * 4)) }
  else s.setStream i st

/-- `stm32_dma_stream_start_once`. -/
def streamStartOnce (s : Stm32Dma) (w : ω) (streamNo : BitVec 32) (skipEnabledCheck : Bool) :
    Except Fault (Stm32Dma × ω) := do
  let i := (streamNo - 1).toNat
  let st := s.stream i
  if ¬ i < DMA_Stream_Count then .error .outOfBounds
  else if st.psize = 0 ∨ st.msize = 0 then
    .error (.hwError "Error: Halfword is NOT implemented or invalid size!\n")
  else if !skipEnabledCheck && !st.has DMA_CCR_EN then .ok (s, w)
  else
    let ((src, srcSize), (dest, destSize)) := st.route
    let (buf, w) ← bus.read w src.toNat srcSize
    let w ← bus.write w dest.toNat ((buf ++ [junk s]).take destSize)
    .ok (s.finish i, w)

/-- `stm32_dma_stream_start_whole`, with a bound on the number of items. -/
def streamStartWhole (streamNo : BitVec 32) (skipEnabledCheck : Bool) :
    ℕ → Stm32Dma × ω → Except Fault (Stm32Dma × ω)
  | fuel, (s, w) =>
    if (s.stream (streamNo - 1).toNat).ndtr = 0 then .ok (s, w)
    else
      match fuel with
      | 0 => .error .outOfFuel
      | fuel + 1 => do
        let x ← streamStartOnce junk bus s w streamNo skipEnabledCheck
        streamStartWhole streamNo skipEnabledCheck fuel x

/-! ## Registers -/

/-- `stm32_dma_stream_read`: only the control register can be read. -/
def streamRead (s : Stm32Dma) (streamNo reg : ℕ) : BitVec 32 :=
  match reg with
  | 0x00 => (s.stream streamNo).cr
  | _ => 0

/-- `stm32_dma_read`. -/
def read (s : Stm32Dma) (addr size : ℕ) : Except Fault (BitVec 64) :=
  if size ≠ 4 then .error (.hwError "stm32 crc only supports 4-byte reads\n")
  else if addr % 4 ≠ 0 then .error (.hwError "stm32 dma: Adreess is not 4 byte Alligned write!\n")
  else if addr ≥ R_DMA_MAX then
    .error (.hwError ("invalid read stm32 dma register 0x" ++ hex 2 (addr * 4 % 2 ^ 32) ++ "\n"))
  else
    match addr with
    | 0x00 => .ok (s.isr.setWidth 64)
    | 0x04 => .ok (s.ifcr.setWidth 64)
    | _ => .ok ((s.streamRead ((addr - 8) / 16) ((addr - 8) % 16)).setWidth 64)

/-- What a write of `data` to the control register starts. -/
def enable (now : BitVec 64) (s : Stm32Dma) (w : ω) (streamNo : ℕ) (data : BitVec 32) :
    Except Fault (Stm32Dma × ω) :=
  if (s.stream streamNo).cr &&& DMA_CCR_EN = 0 ∧ data &&& DMA_CCR_EN ≠ 0 then
    if data &&& DMA_CCR_MEM2MEM ≠ 0 then
      streamStartWhole junk bus (BitVec.ofNat 32 (streamNo + 1)) true
        (s.stream streamNo).ndtr.toNat (s, w)
    else if data &&& DMA_CCR_CIRC ≠ 0 then
      if data &&& DMA_CCR_DIR ≠ 0 then
        .error (.hwError "stm32 dma Circular mode is not supported in Memory to Peripheral mode\n")
      else if s.chanCircularMode ≠ 0 then
        .error (.hwError
          "stm32 dma Circular mode: Currently only one channel supports circular mode!\n")
      else
        .ok ({ s with
          chanCircularMode := BitVec.ofNat 32 (streamNo + 1)
          circularTimer := some (now + DMA_Circular_delay) }, w)
    else .ok (s, w)
  else .ok (s, w)

/-- `stm32_dma_stream_write`.  What the control register starts sees the old value
    of the register. -/
def streamWrite (now : BitVec 64) (s : Stm32Dma) (w : ω) (streamNo addr : ℕ) (data : BitVec 32) :
    Except Fault (Stm32Dma × ω) :=
  match addr with
  | 0x00 => do
    let (s, w) ← enable junk bus now s w streamNo data
    .ok (s.setStream streamNo { s.stream streamNo with cr := data }, w)
  | 0x04 =>
    if (s.stream streamNo).has DMA_CCR_EN then
      .error (.hwError "stm32 dma write to NDTR while enabled\n")
    else
      .ok (s.setStream streamNo { s.stream streamNo with ndtr := data, circularNdtr := data }, w)
  | 0x08 => .ok (s.setStream streamNo { s.stream streamNo with par := data, circularPar := data }, w)
  | 0x0c => .ok (s.setStream streamNo { s.stream streamNo with mar := data, circularMar := data }, w)
  | _ => .ok (s, w)

/-- `stm32_dma_write`.  A write to `IFCR` is stored, and clears no flag. -/
def write (now : BitVec 64) (s : Stm32Dma) (w : ω) (addr : ℕ) (data : BitVec 64) (size : ℕ) :
    Except Fault (Stm32Dma × ω) :=
  if size ≠ 4 then .error (.hwError "stm32 dma only supports 4-byte writes\n")
  else if addr % 4 ≠ 0 then .error (.hwError "stm32 dma: Adreess is not 4 byte Alligned write!\n")
  else
    match addr with
    | 0x00 => .error (.hwError "stm32 dma: invalid write to ISR\n")
    | 0x04 => .ok ({ s with ifcr := data.setWidth 32 }, w)
    | _ =>
      if addr < DMA_Reg_Total_Size then
        streamWrite junk bus now s w ((addr - 8) / 16) ((addr - 8) % 16) (data.setWidth 32)
      else .error (.hwError ("stm32 dma unimpl write reg 0x" ++ hex 8 (addr % 2 ^ 32) ++ "\n"))

/-! ## Requests, the timer and reset -/

/-- `dma_find_channel`: numbered from `1` on. -/
def findChannel (s : Stm32Dma) (address : BitVec 32) (searchInDest : Bool) : Option ℕ :=
  ((List.range DMA_Stream_Count).find? fun i =>
    (if searchInDest then (s.stream i).mar else (s.stream i).par) = address).map (· + 1)

/-- `dma_irq_handler`: `0x10` and `0x11` are the requests of the first UART to read
    and to write. -/
def irqHandler (s : Stm32Dma) (w : ω) (level : BitVec 32) : Except Fault (Stm32Dma × ω) :=
  match level with
  | 0x00 => .ok (s, w)
  | 0x10 =>
    match s.findChannel (0x40013800 + 0x04) true with
    | none => .error (.hwError "Cant Find channel for USART1 RX\n")
    | some channel => streamStartOnce junk bus s w (BitVec.ofNat 32 channel) false
  | 0x11 =>
    match s.findChannel (0x40013800 + 0x04) false with
    | none => .error (.hwError "Cant Find channel for USART1 TX\n")
    | some channel => streamStartOnce junk bus s w (BitVec.ofNat 32 channel) false
  | _ => .error (.hwError "Invalid level")

/-- In circular mode, a finished transfer starts again. -/
def rewind (st : DmaStream) : DmaStream :=
  if st.ndtr = 0 ∧ st.has DMA_CCR_CIRC then
    { st with
      mar := st.circularMar
      par := st.circularPar
      ndtr := st.circularNdtr
      cr := st.cr ||| DMA_CCR_EN }
  else st

/-- `stm32_dma_stream_circular_timer`. -/
def streamCircularTimer (now : BitVec 64) (s : Stm32Dma) (w : ω) : Except Fault (Stm32Dma × ω) := do
  let i := (s.chanCircularMode - 1).toNat
  let (s, w) ← streamStartOnce junk bus s w s.chanCircularMode false
  let s := s.setStream i (rewind (s.stream i))
  if (s.stream i).has DMA_CCR_EN then
    .ok ({ s with circularTimer := some (now + DMA_Circular_delay) }, w)
  else .ok (s, w)

/-- `stm32_dma_reset`.  The flags and the timer stay. -/
def reset (s : Stm32Dma) : Stm32Dma :=
  { s with
    ifcr := 0
    chanCircularMode := 0
    stream := fun i =>
      if i < DMA_Stream_Count then ⟨0, 0, 0, 0, 0, 0, 0, (s.stream i).irqPulses⟩ else s.stream i }

/-! ## The device -/

/-- What can happen to the device. -/
inductive Op where
  | read (addr size : ℕ)
  | write (addr : ℕ) (data : BitVec 64) (size : ℕ)
  | irq (level : BitVec 32)
  | circularTimer
  | reset

/-- An operation, at a time. -/
def step (x : Stm32Dma × ω) (o : BitVec 64 × Op) : Except Fault (Stm32Dma × ω) :=
  match o.2 with
  | .read addr size => do
    let _ ← x.1.read addr size
    .ok x
  | .write addr data size => x.1.write junk bus o.1 x.2 addr data size
  | .irq level => x.1.irqHandler junk bus x.2 level
  | .circularTimer =>
    if x.1.circularTimer.isSome then
      streamCircularTimer junk bus o.1 { x.1 with circularTimer := none } x.2
    else .ok x
  | .reset => .ok (x.1.reset, x.2)

/-! ## What the operations do -/

variable {junk bus} {s : Stm32Dma} {w : ω} {x : Stm32Dma × ω} {c : ℕ} {now : BitVec 64} {data : BitVec 32}

/-- An item is moved if the stream is enabled, or if that is not checked. -/
theorem streamStartOnce_ok {streamNo : BitVec 32} {skip : Bool}
    (h : streamStartOnce junk bus s w streamNo skip = .ok x) :
    (streamNo - 1).toNat < DMA_Stream_Count ∧
      x.1 = if skip || (s.stream (streamNo - 1).toNat).has DMA_CCR_EN then
        s.finish (streamNo - 1).toNat else s := by
  unfold streamStartOnce at h
  dsimp only at h
  split at h
  · cases h
  rename_i hi
  split at h
  · cases h
  split at h
  · rename_i hen
    cases h
    rw [if_neg (by simpa using hen)]
    exact ⟨not_not.1 hi, rfl⟩
  · rename_i hen
    obtain ⟨⟨buf, w₁⟩, -, h⟩ := Machine.bind_eq_ok.1 h
    obtain ⟨w₂, -, h⟩ := Machine.bind_eq_ok.1 h
    cases h
    refine ⟨not_not.1 hi, (if_pos ?_).symm⟩
    cases skip <;> simp_all

/-- A write to the control register starts a whole transfer, puts the channel in
    circular mode, or starts nothing. -/
theorem enable_ok (h : enable junk bus now s w c data = .ok x) :
    ((s.stream c).cr &&& DMA_CCR_EN = 0 ∧ data &&& DMA_CCR_EN ≠ 0 ∧ data &&& DMA_CCR_MEM2MEM ≠ 0 ∧
      streamStartWhole junk bus (BitVec.ofNat 32 (c + 1)) true (s.stream c).ndtr.toNat (s, w) = .ok x) ∨
    (s.chanCircularMode = 0 ∧ ¬ ((s.stream c).cr &&& DMA_CCR_EN = 0 ∧ data &&& DMA_CCR_EN ≠ 0 ∧
        data &&& DMA_CCR_MEM2MEM ≠ 0) ∧
      x.1 = { s with
        chanCircularMode := BitVec.ofNat 32 (c + 1)
        circularTimer := some (now + DMA_Circular_delay) }) ∨
    (¬ ((s.stream c).cr &&& DMA_CCR_EN = 0 ∧ data &&& DMA_CCR_EN ≠ 0 ∧
        data &&& DMA_CCR_MEM2MEM ≠ 0) ∧ x.1 = s) := by
  unfold enable at h
  split at h
  · rename_i hen
    split at h
    · rename_i hm
      exact .inl ⟨hen.1, hen.2, hm, h⟩
    rename_i hm
    have hno : ¬ ((s.stream c).cr &&& DMA_CCR_EN = 0 ∧ data &&& DMA_CCR_EN ≠ 0 ∧
        data &&& DMA_CCR_MEM2MEM ≠ 0) := fun h' => hm h'.2.2
    split at h
    · split at h
      · cases h
      split at h
      · cases h
      · rename_i hc
        cases h
        exact .inr (.inl ⟨not_not.1 hc, hno, rfl⟩)
    · cases h; exact .inr (.inr ⟨hno, rfl⟩)
  · rename_i hen
    cases h
    exact .inr (.inr ⟨fun h' => hen ⟨h'.1, h'.2.1⟩, rfl⟩)

theorem streamWrite_ok {reg : ℕ} (h : streamWrite junk bus now s w c reg data = .ok x) :
    (reg = 0 ∧ ∃ y st, enable junk bus now s w c data = .ok y ∧ x.1 = y.1.setStream c st) ∨
      reg ≠ 0 ∧ ∃ st, x.1 = s.setStream c st := by
  have hsame : s = s.setStream c (s.stream c) := by simp [setStream]
  unfold streamWrite at h
  split at h
  · obtain ⟨y, hy, h⟩ := Machine.bind_eq_ok.1 h
    cases h
    exact .inl ⟨rfl, y, _, hy, rfl⟩
  · split at h
    · cases h
    · cases h; exact .inr ⟨by decide, _, rfl⟩
  · cases h; exact .inr ⟨by decide, _, rfl⟩
  · cases h; exact .inr ⟨by decide, _, rfl⟩
  · rename_i hreg _ _ _
    cases h
    exact .inr ⟨hreg, _, hsame⟩

theorem write_ok {addr size : ℕ} {value : BitVec 64}
    (h : write junk bus now s w addr value size = .ok x) : size = 4 ∧
      ((addr = 4 ∧ x.1 = { s with ifcr := value.setWidth 32 }) ∨
        (8 ≤ addr ∧ (addr - 8) / 16 < DMA_Stream_Count ∧
          streamWrite junk bus now s w ((addr - 8) / 16) ((addr - 8) % 16) (value.setWidth 32) =
            .ok x)) := by
  unfold write at h
  split at h
  · cases h
  rename_i hsize
  split at h
  · cases h
  rename_i halign
  refine ⟨not_not.1 hsize, ?_⟩
  split at h
  · cases h
  · cases h; exact .inl ⟨rfl, rfl⟩
  · rename_i h0 h4
    split at h
    · rename_i hlt
      have h8 : 8 ≤ addr := by
        have hne : addr ≠ 0 ∧ addr ≠ 4 := ⟨h0, h4⟩
        omega
      have hno : (addr - 8) / 16 < DMA_Stream_Count := by
        unfold DMA_Reg_Total_Size at hlt
        unfold DMA_Stream_Count; omega
      exact .inr ⟨h8, hno, h⟩
    · cases h

end Stm32Dma

end Bluepill

/-
  Alternate function I/O (`hw/gpio/stm32_afio.c`).

  The AFIO connects the pins of the GPIO ports to the inputs of the external
  interrupt controller: line `n` gets pin `n` of the port in its four bits of the
  `EXTICR` registers.  `inIrq g n` is the input that pin `n` of port `g` is
  connected to.

  A write disconnects the port in the old value and connects the port in the new
  one.  The reset connects port A without disconnecting anything, so the lines
  stay connected to one port each as long as a reset finds them all at port A
  (`routed_iff`).  The four bits name more ports than there are: a write stops
  exactly if it names one that does not exist (`gpio_access_iff`).
-/
import Bluepill.Qemu
import Bluepill.Rcc

namespace Bluepill

def STM32_GPIO_COUNT : ℕ := 7
def AFIO_EXTICR_COUNT : ℕ := 4
def AFIO_EXTI_PER_CR : ℕ := 4

/-- `struct Stm32Afio`, with the `in_irq` wires of the ports. -/
structure Stm32Afio where
  USART1_REMAP : BitVec 32
  USART2_REMAP : BitVec 32
  USART3_REMAP : BitVec 32
  MAPR : BitVec 32
  EXTICR : ℕ → BitVec 32
  inIrq : ℕ → ℕ → Option ℕ

namespace Stm32Afio

/-- The state before the first reset. -/
def init : Stm32Afio where
  USART1_REMAP := 0
  USART2_REMAP := 0
  USART3_REMAP := 0
  MAPR := 0
  EXTICR _ := 0
  inIrq _ _ := none

/-- `stm32_afio_AFIO_MAPR_read`. -/
def maprRead (s : Stm32Afio) : BitVec 32 :=
  s.USART1_REMAP <<< 2 ||| s.USART2_REMAP <<< 3 ||| s.USART3_REMAP <<< 4

/-- `stm32_afio_AFIO_MAPR_write`.  The first two fields come from the stored
    register, which is never written. -/
def maprWrite (s : Stm32Afio) (newValue : BitVec 32) : Stm32Afio :=
  { s with
    USART1_REMAP := extract32 s.MAPR 2 1
    USART2_REMAP := extract32 s.MAPR 3 1
    USART3_REMAP := (newValue &&& 0x00000030) >>> 4 }

/-- `sysbus_connect_irq` on wire `n` of port `s->gpio[gpioIndex]`. -/
def connectIrq (s : Stm32Afio) (gpioIndex n : ℕ) (irq : Option ℕ) : Except Fault Stm32Afio :=
  if gpioIndex < STM32_GPIO_COUNT then
    .ok { s with
      inIrq := Function.update s.inIrq gpioIndex (Function.update (s.inIrq gpioIndex) n irq) }
  else .error .outOfBounds

/-- The `i`-th four bits of a value of an `EXTICR` register. -/
def gpioIndex (value : BitVec 32) (i : ℕ) : ℕ := ((value >>> (i * 4)) &&& 0xf).toNat

/-- `stm32_afio_AFIO_EXTICR_write`, for one line. -/
def exticrLine (index : ℕ) (newValue : BitVec 32) (init : Bool) (s : Stm32Afio) (i : ℕ) :
    Except Fault Stm32Afio :=
  let extiLine := index * AFIO_EXTI_PER_CR + i
  if init then s.connectIrq (gpioIndex newValue i) extiLine (some extiLine)
  else do
    let s ← s.connectIrq (gpioIndex (s.EXTICR index) i) extiLine none
    s.connectIrq (gpioIndex newValue i) extiLine (some extiLine)

/-- `stm32_afio_AFIO_EXTICR_write`. -/
def exticrWrite (s : Stm32Afio) (index : ℕ) (newValue : BitVec 32) (init : Bool) :
    Except Fault Stm32Afio := do
  assert (index < AFIO_EXTICR_COUNT)
  let s ← (List.range AFIO_EXTI_PER_CR).foldlM (exticrLine index newValue init) s
  .ok { s with EXTICR := Function.update s.EXTICR index newValue }

/-- `stm32_afio_read`. -/
def read (s : Stm32Afio) (offset : ℕ) : BitVec 64 :=
  match offset with
  | 0x04 => s.maprRead.setWidth 64
  | 0x08 => (s.EXTICR 0).setWidth 64
  | 0x0c => (s.EXTICR 1).setWidth 64
  | 0x10 => (s.EXTICR 2).setWidth 64
  | 0x14 => (s.EXTICR 3).setWidth 64
  | _ => 0

/-- `stm32_afio_write`. -/
def write (s : Stm32Afio) (offset : ℕ) (value : BitVec 64) : Except Fault Stm32Afio :=
  match offset with
  | 0x04 => .ok (s.maprWrite (value.setWidth 32))
  | 0x08 => s.exticrWrite 0 (value.setWidth 32) false
  | 0x0c => s.exticrWrite 1 (value.setWidth 32) false
  | 0x10 => s.exticrWrite 2 (value.setWidth 32) false
  | 0x14 => s.exticrWrite 3 (value.setWidth 32) false
  | _ => .ok s

/-- `stm32_afio_reset`. -/
def reset (s : Stm32Afio) : Except Fault Stm32Afio := do
  let s := s.maprWrite 0x00000000
  let s ← s.exticrWrite 0 0x00000000 true
  let s ← s.exticrWrite 1 0x00000000 true
  let s ← s.exticrWrite 2 0x00000000 true
  s.exticrWrite 3 0x00000000 true

/-- `stm32_afio_get_periph_map`. -/
def getPeriphMap (s : Stm32Afio) (periph : Periph) : Except Fault (BitVec 32) :=
  match periph with
  | .UART1 => .ok s.USART1_REMAP
  | .UART2 => .ok s.USART2_REMAP
  | .UART3 => .ok s.USART3_REMAP
  | _ => .error (.hwError "Invalid peripheral")

/-- What can happen to the device. -/
inductive Op where
  | write (offset : ℕ) (value : BitVec 64)
  | reset

def step (s : Stm32Afio) : Op → Except Fault Stm32Afio
  | .write offset value => s.write offset value
  | .reset => s.reset

/-! ## Lines -/

/-- The wires of line `n`, by port. -/
def line (s : Stm32Afio) (n : ℕ) : ℕ → Option ℕ := fun g => s.inIrq g n

/-- The port of line `n`, in the registers. -/
def port (s : Stm32Afio) (n : ℕ) : ℕ := gpioIndex (s.EXTICR (n / 4)) (n % 4)

/-- What a write of port `new` does to the wires `w` of line `n`, when the
    registers had port `old`. -/
def reroute (init : Bool) (n old new : ℕ) (w : ℕ → Option ℕ) : ℕ → Option ℕ :=
  Function.update (if init then w else Function.update w old none) new (some n)

/-- Only port `g` is connected to line `n`. -/
def Only (n g : ℕ) (w : ℕ → Option ℕ) : Prop := ∀ g', w g' = if g' = g then some n else none

theorem Only.reroute {n old new : ℕ} {w : ℕ → Option ℕ} (h : Only n old w) :
    Only n new (reroute false n old new w) := by
  intro g
  simp only [Stm32Afio.reroute, Bool.false_eq_true, if_false, Function.update_apply, h g]
  split
  · rfl
  · split <;> rfl

/-- A reset leaves only port A connected if nothing else was. -/
theorem Only.init {n old : ℕ} {w : ℕ → Option ℕ} (h : Only n old w) (k : ℕ) :
    Only n 0 (Stm32Afio.reroute true n k 0 w) ↔ old = 0 := by
  constructor
  · intro h0
    by_contra hne
    have hold := h0 old
    rw [Stm32Afio.reroute, if_pos rfl, Function.update_of_ne hne, h old, if_pos rfl, if_neg hne] at hold
    cases hold
  · rintro rfl g
    simp only [Stm32Afio.reroute, if_true, Function.update_apply, h g]
    split <;> rfl

variable {s t : Stm32Afio} {index : ℕ} {v : BitVec 32} {b : Bool}

theorem gpioIndex_zero (i : ℕ) : gpioIndex 0x00000000 i = 0 := by simp [gpioIndex]

theorem connectIrq_spec {g n : ℕ} {irq : Option ℕ} (h : s.connectIrq g n irq = .ok t) :
    g < 7 ∧ t.EXTICR = s.EXTICR ∧
      ∀ m, t.line m = if m = n then Function.update (s.line n) g irq else s.line m := by
  unfold connectIrq at h
  split at h
  · rename_i hg
    cases h
    refine ⟨hg, rfl, fun m => funext fun g' => ?_⟩
    simp only [line, Function.update_apply]
    by_cases hm : m = n <;> by_cases hg' : g' = g <;> simp [hm, hg', line]
  · cases h

theorem exticrLine_spec {i : ℕ} (h : exticrLine index v b s i = .ok t) :
    gpioIndex v i < 7 ∧ t.EXTICR = s.EXTICR ∧ ∀ m, t.line m = if m = index * 4 + i then
      reroute b (index * 4 + i) (gpioIndex (s.EXTICR index) i) (gpioIndex v i) (s.line m)
      else s.line m := by
  unfold exticrLine AFIO_EXTI_PER_CR at h
  cases b with
  | true =>
    obtain ⟨hg, hcr, hl⟩ := connectIrq_spec h
    refine ⟨hg, hcr, fun m => ?_⟩
    rw [hl m]
    by_cases hm : m = index * 4 + i
    · subst hm; rfl
    · simp only [if_neg hm]
  | false =>
    obtain ⟨u, hu, h⟩ := Machine.bind_eq_ok.1 h
    obtain ⟨-, hcr₁, hl₁⟩ := connectIrq_spec hu
    obtain ⟨hg, hcr, hl⟩ := connectIrq_spec h
    refine ⟨hg, hcr.trans hcr₁, fun m => ?_⟩
    rw [hl m, hl₁ m, hl₁ (index * 4 + i), if_pos rfl]
    by_cases hm : m = index * 4 + i
    · subst hm; simp only [if_true]; rfl
    · simp only [if_neg hm]

/-- The wires while `u` is on the way from `s`, with the lines `l` of the register
    left. -/
structure Rerouted (s u : Stm32Afio) (index : ℕ) (v : BitVec 32) (b : Bool) (l : List ℕ) : Prop where
  left : l.Nodup ∧ ∀ i ∈ l, i < 4
  EXTICR : u.EXTICR = s.EXTICR
  bound : ∀ i < 4, i ∉ l → gpioIndex v i < 7
  line : ∀ n, u.line n = if n / 4 = index ∧ n % 4 ∉ l then
    reroute b n (s.port n) (gpioIndex v (n % 4)) (s.line n) else s.line n

theorem Rerouted.step {u : Stm32Afio} {i : ℕ} {l : List ℕ} (h : Rerouted s u index v b (i :: l))
    (ht : exticrLine index v b u i = .ok t) : Rerouted s t index v b l := by
  obtain ⟨hg, hcr, hl⟩ := exticrLine_spec ht
  obtain ⟨hnot, hn⟩ := List.nodup_cons.1 h.left.1
  have hi : i < 4 := h.left.2 i (by simp)
  refine ⟨⟨hn, fun j hj => h.left.2 j (by simp [hj])⟩, hcr.trans h.EXTICR, fun j hj hjl => ?_, fun n => ?_⟩
  · by_cases hji : j = i
    · subst hji; exact hg
    · exact h.bound j hj (by simp [hji, hjl])
  · rw [hl n, h.line n, h.EXTICR]
    by_cases hni : n = index * 4 + i
    · have hdiv : n / 4 = index := by omega
      have hmod : n % 4 = i := by omega
      rw [if_pos hni, if_neg (by simp [hmod]), if_pos ⟨hdiv, by rwa [hmod]⟩, port, hdiv, hmod, ← hni]
    · rw [if_neg hni]
      have hiff : n / 4 = index ∧ n % 4 ∉ i :: l ↔ n / 4 = index ∧ n % 4 ∉ l := by
        refine and_congr_right fun hdiv => ?_
        have hne : n % 4 ≠ i := by omega
        simp [hne]
      simp only [hiff]

/-- The wires and the registers after a write to an `EXTICR` register. -/
theorem exticrWrite_spec (h : s.exticrWrite index v b = .ok t) :
    index < 4 ∧ (∀ i < 4, gpioIndex v i < 7) ∧ t.EXTICR = Function.update s.EXTICR index v ∧
      ∀ n, t.line n = if n / 4 = index then
        reroute b n (s.port n) (gpioIndex v (n % 4)) (s.line n) else s.line n := by
  obtain ⟨hi, h⟩ := assert_bind.1 h
  obtain ⟨u, hu, h⟩ := Machine.bind_eq_ok.1 h
  cases h
  have hstart : Rerouted s s index v b (List.range AFIO_EXTI_PER_CR) := by
    refine ⟨⟨List.nodup_range, fun i hi => List.mem_range.1 hi⟩, rfl,
      fun i hi hl => absurd (List.mem_range.2 hi) hl, fun n => ?_⟩
    rw [if_neg]
    rintro ⟨-, hl⟩
    exact hl (List.mem_range.2 (Nat.mod_lt n (by decide)))
  have hend := (Machine.foldlM_sim (V := fun _ => ()) (g := fun _ _ => ())
    (J := fun u l => Rerouted s u index v b l) (fun _ _ _ _ h ht => ⟨h.step ht, rfl⟩) hstart hu).1
  refine ⟨hi, fun i hi => hend.bound i hi (by simp), by rw [hend.EXTICR], fun n => ?_⟩
  have hl := hend.line n
  simp only [List.not_mem_nil, not_false_eq_true, and_true] at hl
  exact hl

theorem exticrWrite_port (h : s.exticrWrite index v b = .ok t) (n : ℕ) :
    t.port n = if n / 4 = index then gpioIndex v (n % 4) else s.port n := by
  obtain ⟨-, -, hcr, -⟩ := exticrWrite_spec h
  rw [port, hcr]
  by_cases hn : n / 4 = index
  · rw [if_pos hn, ← hn, Function.update_self]
  · rw [if_neg hn, Function.update_of_ne hn]; rfl

/-- The registers name ports that exist, and no other port is connected. -/
structure Wf (s : Stm32Afio) : Prop where
  port : ∀ n < 16, s.port n < 7
  far : ∀ n g, 7 ≤ g → s.line n g = none

theorem wf_init : Stm32Afio.init.Wf :=
  ⟨fun n _ => by simp [Stm32Afio.port, gpioIndex, Stm32Afio.init], fun _ _ _ => rfl⟩

theorem reroute_far {n old new g : ℕ} {w : ℕ → Option ℕ} (hnew : new < 7) (hg : 7 ≤ g)
    (hw : w g = none) : reroute b n old new w g = none := by
  rw [reroute, Function.update_of_ne (by omega)]
  split
  · exact hw
  · rw [Function.update_apply]; split <;> [rfl; exact hw]

theorem Wf.exticrWrite (h : s.Wf) (ht : s.exticrWrite index v b = .ok t) : t.Wf := by
  obtain ⟨-, hv, -, hl⟩ := exticrWrite_spec ht
  refine ⟨fun n hn => ?_, fun n g hg => ?_⟩
  · rw [exticrWrite_port ht n]
    split
    · exact hv _ (Nat.mod_lt n (by decide))
    · exact h.port n hn
  · rw [hl n]
    split
    · exact reroute_far (hv _ (Nat.mod_lt n (by decide))) hg (h.far n g hg)
    · exact h.far n g hg

/-- **A write keeps every line at one port.** -/
theorem only_exticrWrite (h : ∀ n < 16, Only n (s.port n) (s.line n))
    (ht : s.exticrWrite index v false = .ok t) : ∀ n < 16, Only n (t.port n) (t.line n) := by
  intro n hn
  obtain ⟨-, -, -, hl⟩ := exticrWrite_spec ht
  rw [exticrWrite_port ht n, hl n]
  split
  · exact (h n hn).reroute
  · exact h n hn

/-- **A reset connects port A to every line**, and disconnects nothing. -/
theorem reset_spec (ht : s.reset = .ok t) :
    (s.Wf → t.Wf) ∧ ∀ n < 16, t.port n = 0 ∧ t.line n = reroute true n 0 0 (s.line n) := by
  unfold reset at ht
  obtain ⟨s₁, h₁, ht⟩ := Machine.bind_eq_ok.1 ht
  obtain ⟨s₂, h₂, ht⟩ := Machine.bind_eq_ok.1 ht
  obtain ⟨s₃, h₃, h₄⟩ := Machine.bind_eq_ok.1 ht
  refine ⟨fun h => ?_, fun n hn => ?_⟩
  · have h₀ : (s.maprWrite 0x00000000).Wf := ⟨h.port, h.far⟩
    exact (((h₀.exticrWrite h₁).exticrWrite h₂).exticrWrite h₃).exticrWrite h₄
  · obtain ⟨-, -, -, hl₁⟩ := exticrWrite_spec h₁
    obtain ⟨-, -, -, hl₂⟩ := exticrWrite_spec h₂
    obtain ⟨-, -, -, hl₃⟩ := exticrWrite_spec h₃
    obtain ⟨-, -, -, hl₄⟩ := exticrWrite_spec h₄
    rw [exticrWrite_port h₄, exticrWrite_port h₃, exticrWrite_port h₂, exticrWrite_port h₁,
      hl₄, hl₃, hl₂, hl₁]
    simp only [gpioIndex_zero]
    -- the line belongs to exactly one of the four registers
    obtain hk | hk | hk | hk : n / 4 = 0 ∨ n / 4 = 1 ∨ n / 4 = 2 ∨ n / 4 = 3 := by omega
    all_goals rw [hk]; exact ⟨rfl, rfl⟩

/-! ## Faults -/

theorem connectIrq_ok {g n : ℕ} (irq : Option ℕ) (hg : g < 7) : ∃ t, s.connectIrq g n irq = .ok t :=
  ⟨_, if_pos hg⟩

theorem exticrLine_ok {i : ℕ} (hv : gpioIndex v i < 7) (hold : gpioIndex (s.EXTICR index) i < 7) :
    ∃ t, exticrLine index v b s i = .ok t := by
  unfold exticrLine
  cases b with
  | true => exact connectIrq_ok _ hv
  | false =>
    obtain ⟨u, hu⟩ := connectIrq_ok (s := s) (n := index * AFIO_EXTI_PER_CR + i) none hold
    obtain ⟨t, ht⟩ := connectIrq_ok (s := u) (n := index * AFIO_EXTI_PER_CR + i)
      (some (index * AFIO_EXTI_PER_CR + i)) hv
    exact ⟨t, Machine.bind_eq_ok.2 ⟨u, hu, ht⟩⟩

/-- The ports in a register exist. -/
theorem Wf.old {i : ℕ} (h : s.Wf) (hi : index < 4) (hi4 : i < 4) : gpioIndex (s.EXTICR index) i < 7 := by
  have hp := h.port (index * 4 + i) (by omega)
  rwa [Stm32Afio.port, show (index * 4 + i) / 4 = index by omega, show (index * 4 + i) % 4 = i by omega] at hp

/-- **A write of ports that exist succeeds.** -/
theorem exticrWrite_ok (h : s.Wf) (b : Bool) (hi : index < 4) (hv : ∀ i < 4, gpioIndex v i < 7) :
    ∃ t, s.exticrWrite index v b = .ok t := by
  have hloop : Machine.Post (fun u => u.EXTICR = s.EXTICR) (fun _ => False)
      ((List.range AFIO_EXTI_PER_CR).foldlM (exticrLine index v b) s) := by
    refine Machine.Post.foldlM (fun i hi4 u hu => ?_) rfl
    have hi4 : i < 4 := List.mem_range.1 hi4
    obtain ⟨u', hu'⟩ := exticrLine_ok (b := b) (hv i hi4) (hu ▸ h.old hi hi4)
    obtain ⟨-, hcr, -⟩ := exticrLine_spec hu'
    rw [hu']
    exact hcr.trans hu
  obtain ⟨u, hu, -⟩ := Machine.post_ok.1 hloop
  exact ⟨_, assert_bind.2 ⟨hi, Machine.bind_eq_ok.2 ⟨u, hu, rfl⟩⟩⟩

/-- **A reset succeeds.** -/
theorem reset_ok (h : s.Wf) : ∃ t, s.reset = .ok t := by
  have hz : ∀ i < 4, gpioIndex 0x00000000 i < 7 := fun i _ => by rw [gpioIndex_zero]; decide
  have h₀ : (s.maprWrite 0x00000000).Wf := ⟨h.port, h.far⟩
  obtain ⟨s₁, h₁⟩ := exticrWrite_ok h₀ true (show 0 < 4 by decide) hz
  obtain ⟨s₂, h₂⟩ := exticrWrite_ok (h₀.exticrWrite h₁) true (show 1 < 4 by decide) hz
  obtain ⟨s₃, h₃⟩ := exticrWrite_ok ((h₀.exticrWrite h₁).exticrWrite h₂) true
    (show 2 < 4 by decide) hz
  obtain ⟨s₄, h₄⟩ := exticrWrite_ok
    (((h₀.exticrWrite h₁).exticrWrite h₂).exticrWrite h₃) true (show 3 < 4 by decide) hz
  exact ⟨s₄, Machine.bind_eq_ok.2 ⟨s₁, h₁, Machine.bind_eq_ok.2 ⟨s₂, h₂,
    Machine.bind_eq_ok.2 ⟨s₃, h₃, h₄⟩⟩⟩⟩

/-! ## Routing -/

/-- The port of line `n`, in the registers as read back. -/
def readPort (s : Stm32Afio) (n : ℕ) : ℕ :=
  gpioIndex ((s.read (0x08 + 4 * (n / 4))).setWidth 32) (n % 4)

/-- Every line is connected to pin `n` of its port, and to no other. -/
def Routed (s : Stm32Afio) : Prop :=
  ∀ n < 16, s.readPort n < STM32_GPIO_COUNT ∧
    ∀ g < STM32_GPIO_COUNT, s.inIrq g n = if g = s.readPort n then some n else none

theorem readPort_eq {n : ℕ} (hn : n < 16) : s.readPort n = s.port n := by
  have hread : (s.read (0x08 + 4 * (n / 4))).setWidth 32 = s.EXTICR (n / 4) := by
    obtain hk | hk | hk | hk : n / 4 = 0 ∨ n / 4 = 1 ∨ n / 4 = 2 ∨ n / 4 = 3 := by omega
    all_goals rw [hk]; exact Word.setWidth_setWidth_32 _
  rw [readPort, hread]; rfl

theorem routed_iff_only (h : s.Wf) : s.Routed ↔ ∀ n < 16, Only n (s.port n) (s.line n) := by
  refine forall₂_congr fun n hn => ?_
  have hp := h.port n hn
  rw [readPort_eq hn, and_iff_right (show s.port n < STM32_GPIO_COUNT from hp)]
  constructor
  · intro hg g
    by_cases hg7 : g < 7
    · exact hg g hg7
    · rw [h.far n g (by omega), if_neg (by omega)]
  · intro ho g _; exact ho g

/-- A reset finds every line at port A. -/
def AtPortA (s : Stm32Afio) : Op → Prop
  | .write _ _ => True
  | .reset => ∀ n < 16, s.readPort n = 0

theorem Wf.step {o : Op} (h : s.Wf) (ho : s.step o = .ok t) : t.Wf := by
  cases o with
  | write offset value =>
    simp only [Stm32Afio.step, Stm32Afio.write] at ho
    split at ho
    case h_1 => cases ho; exact ⟨h.port, h.far⟩
    case h_6 => cases ho; exact h
    all_goals exact h.exticrWrite ho
  | reset => exact (reset_spec ho).1 h

theorem step_routed {o : Op} (h : s.Wf) (hs : s.Routed) (ho : s.step o = .ok t) :
    t.Routed ↔ s.AtPortA o := by
  rw [routed_iff_only h] at hs
  rw [routed_iff_only (h.step ho)]
  cases o with
  | write offset value =>
    refine iff_of_true ?_ trivial
    simp only [Stm32Afio.step, Stm32Afio.write] at ho
    split at ho
    case h_1 => cases ho; exact hs
    case h_6 => cases ho; exact hs
    all_goals exact only_exticrWrite hs ho
  | reset =>
    refine forall₂_congr fun n hn => ?_
    obtain ⟨hp, hl⟩ := (reset_spec ho).2 n hn
    rw [hp, hl, (hs n hn).init, readPort_eq hn]

/-- The first reset connects every line to port A. -/
theorem first_reset (h₀ : Stm32Afio.init.reset = .ok s) : s.Wf ∧ s.Routed := by
  obtain ⟨hwf, hspec⟩ := reset_spec h₀
  refine ⟨hwf wf_init, ?_⟩
  rw [routed_iff_only (hwf wf_init)]
  intro n hn g
  rw [(hspec n hn).1, (hspec n hn).2, reroute, if_pos rfl, Function.update_apply]; rfl

end Stm32Afio

open Stm32Afio

/-- **When every line is connected to one port throughout a run** that starts with
    the first reset. -/
theorem routed_iff {s u : Stm32Afio} {l : List Stm32Afio.Op} (h₀ : Stm32Afio.init.reset = .ok s)
    (h : Machine.run Stm32Afio.step s l = .ok u) :
    (∀ t, Machine.Visits Stm32Afio.step s l t → t.Routed) ↔
      ∀ t o, Machine.Takes Stm32Afio.step s l t o → t.AtPortA o := by
  obtain ⟨hwf, hrouted⟩ := first_reset h₀
  refine Machine.visits_iff_takes (I := Stm32Afio.Wf) ?_ ?_ hwf hrouted h
  · intro t o u ht hu
    exact ht.step hu
  · intro t o u ht hs hu
    exact step_routed ht hs hu

/-- The device after the first reset and a write to `EXTICR1`. -/
theorem exists_exticr1 {v : BitVec 64} (hv : ∀ i < 4, gpioIndex (v.setWidth 32) i < 7) :
    ∃ s t, Stm32Afio.init.reset = .ok s ∧ s.exticrWrite 0 (v.setWidth 32) false = .ok t ∧ t.Wf := by
  obtain ⟨s, hs⟩ := reset_ok wf_init
  have hwf := (reset_spec hs).1 wf_init
  obtain ⟨t, ht⟩ := exticrWrite_ok hwf false (show 0 < 4 by decide) hv
  exact ⟨s, t, hs, ht, hwf.exticrWrite ht⟩

instance (s : Stm32Afio) : (o : Op) → Decidable (s.AtPortA o)
  | .write _ _ => inferInstanceAs (Decidable True)
  | .reset => inferInstanceAs (Decidable (∀ n < 16, s.readPort n = 0))

/-- Line 0 is moved to port B and back before a second reset, and line 4 to port C after it. -/
def movedBack : List Op := [.write 0x08 0x1, .write 0x08 0x0, .reset, .write 0x0c 0x2]

theorem routed_iff_portA : ∃ s u, Stm32Afio.init.reset = .ok s ∧ Machine.run Stm32Afio.step s movedBack = .ok u ∧
    u.readPort 4 = 2 ∧ ∀ t, Machine.Visits Stm32Afio.step s movedBack t → t.Routed := by
  have hreset : ∃ s, Stm32Afio.init.reset = .ok s ∧ Machine.Meets Stm32Afio.step AtPortA s movedBack ∧
      Machine.Post (fun u => u.readPort 4 = 2) (fun _ => False) (Machine.run Stm32Afio.step s movedBack) := by
    rw [← Machine.post_ok]
    decide +kernel
  obtain ⟨s, hs, hmeets, hrun⟩ := hreset
  obtain ⟨u, hu, hport⟩ := Machine.post_ok.1 hrun
  exact ⟨s, u, hs, hu, hport, (routed_iff hs hu).2 hmeets.takes⟩

/-- Line 0 moved to port B, and a second reset: both ports are connected. -/
theorem not_routed_reset : ∃ s u, Stm32Afio.init.reset = .ok s ∧
    Machine.run Stm32Afio.step s [.write 0x08 0x1, .reset] = .ok u ∧
    u.readPort 0 = 0 ∧ u.inIrq 0 0 = some 0 ∧ u.inIrq 1 0 = some 0 ∧ ¬ u.Routed := by
  obtain ⟨s, t, hs, ht, hwf⟩ := exists_exticr1 (v := 0x1) (by decide)
  obtain ⟨u, hu⟩ := reset_ok hwf
  have hrun : Machine.run Stm32Afio.step s [.write 0x08 0x1, .reset] = .ok u :=
    Machine.run_cons_ok.2 ⟨t, ht, Machine.run_cons_ok.2 ⟨u, hu, rfl⟩⟩
  obtain ⟨hport, hline⟩ := (reset_spec hu).2 0 (by decide)
  obtain ⟨-, -, -, htl⟩ := exticrWrite_spec ht
  have hA : u.line 0 0 = some 0 := by rw [hline]; rfl
  have hB : u.line 0 1 = some 0 := by rw [hline, htl 0]; rfl
  have hread : u.readPort 0 = 0 := by rw [readPort_eq (by decide), hport]
  refine ⟨s, u, hs, hrun, hread, hA, hB, fun h => ?_⟩
  have hoff := (h 0 (by decide)).2 1 (by decide)
  rw [hread, if_neg (by decide)] at hoff
  exact absurd (hB.symm.trans hoff) (by decide)

/-! ## Accesses outside of `gpio[]` -/

namespace Stm32Afio

/-- A write to an `EXTICR` register names ports that exist. -/
def Op.PortsExist : Op → Prop
  | .write offset value => offset ∈ [0x08, 0x0c, 0x10, 0x14] →
      ∀ i < AFIO_EXTI_PER_CR, gpioIndex (value.setWidth 32) i < STM32_GPIO_COUNT
  | .reset => True

variable {s : Stm32Afio} {index : ℕ} {v : BitVec 32}

/-- The only way to stop is an access outside of the array. -/
theorem connectIrq_post (s : Stm32Afio) (g n : ℕ) (irq : Option ℕ) :
    Machine.Post (fun _ => True) (· = .outOfBounds) (s.connectIrq g n irq) := by
  unfold connectIrq
  split
  · trivial
  · exact rfl

theorem exticrLine_post (index : ℕ) (v : BitVec 32) (b : Bool) (s : Stm32Afio) (i : ℕ) :
    Machine.Post (fun _ => True) (· = .outOfBounds) (exticrLine index v b s i) := by
  unfold exticrLine
  cases b with
  | true => exact connectIrq_post s _ _ _
  | false => exact (connectIrq_post s _ _ _).bind fun u _ _ => connectIrq_post u _ _ _

/-- **A write of a port that does not exist looks for it behind the array.** -/
theorem exticrWrite_error (hi : index < 4) (b : Bool) (hv : ¬ ∀ i < 4, gpioIndex v i < 7) :
    s.exticrWrite index v b = .error .outOfBounds := by
  have hpost : Machine.Post (fun _ => True) (· = .outOfBounds) (s.exticrWrite index v b) := by
    rw [exticrWrite, assert_of (show index < AFIO_EXTICR_COUNT from hi), Machine.ok_bind]
    refine Machine.Post.bind (R := fun _ => True) ?_ fun _ _ _ => trivial
    exact Machine.Post.foldlM (fun i _ u _ => exticrLine_post index v b u i) trivial
  cases h : s.exticrWrite index v b with
  | ok t => exact absurd (exticrWrite_spec h).2.1 hv
  | error e =>
    rw [h] at hpost
    rw [show e = .outOfBounds from hpost]

/-- The operations that stop, and where. -/
theorem step_post {o : Op} (h : s.Wf) : Machine.Post (fun t => t.Wf ∧ o.PortsExist)
    (fun e => e = .outOfBounds ∧ ¬ o.PortsExist) (s.step o) := by
  have hexti : ∀ {index} {value : BitVec 64}, index < 4 →
      Machine.Post (fun t => t.Wf ∧ ∀ i < 4, gpioIndex (value.setWidth 32) i < 7)
        (fun e => e = .outOfBounds ∧ ¬ ∀ i < 4, gpioIndex (value.setWidth 32) i < 7)
        (s.exticrWrite index (value.setWidth 32) false) := by
    intro index value hi
    by_cases hv : ∀ i < 4, gpioIndex (value.setWidth 32) i < 7
    · obtain ⟨t, ht⟩ := exticrWrite_ok h false hi hv
      rw [ht]
      exact ⟨h.exticrWrite ht, hv⟩
    · rw [exticrWrite_error hi false hv]
      exact ⟨rfl, hv⟩
  cases o with
  | write offset value =>
    by_cases ho : offset ∈ [0x08, 0x0c, 0x10, 0x14]
    · have hiff : Op.PortsExist (.write offset value) ↔ ∀ i < 4, gpioIndex (value.setWidth 32) i < 7 :=
        ⟨fun hp => hp ho, fun hp _ => hp⟩
      simp only [hiff]
      simp only [List.mem_cons, List.not_mem_nil, or_false] at ho
      rcases ho with rfl | rfl | rfl | rfl
      · exact hexti (by decide)
      · exact hexti (by decide)
      · exact hexti (by decide)
      · exact hexti (by decide)
    · have hp : Op.PortsExist (.write offset value) := fun h' => absurd h' ho
      cases hs : s.step (.write offset value) with
      | ok t => exact ⟨h.step hs, hp⟩
      | error e =>
        simp only [Stm32Afio.step, Stm32Afio.write] at hs
        split at hs
        case h_1 => cases hs
        case h_6 => cases hs
        all_goals exact absurd (by decide) ho
  | reset =>
    obtain ⟨t, ht⟩ := reset_ok h
    change Machine.Post _ _ s.reset
    rw [ht]
    exact ⟨(reset_spec ht).1 h, trivial⟩

end Stm32Afio

/-- **When all accesses to `gpio[]` are inside of the array,** in a run that starts with the first
    reset. -/
theorem gpio_access_iff {s : Stm32Afio} {l : List Stm32Afio.Op} (h₀ : Stm32Afio.init.reset = .ok s) :
    Machine.run Stm32Afio.step s l ≠ .error .outOfBounds ↔ ∀ o ∈ l, o.PortsExist := by
  have hwf : s.Wf := (first_reset h₀).1
  have hI : ∀ (t : Stm32Afio) o u, t.Wf → t.step o = .ok u → u.Wf := fun _ _ _ ht hu => ht.step hu
  have hC : ∀ (t : Stm32Afio) o, t.Wf → (t.step o = .error .outOfBounds ↔ ¬ o.PortsExist) := by
    intro t o ht
    have hpost := @step_post t o ht
    cases hu : t.step o with
    | ok u =>
      rw [hu] at hpost
      exact iff_of_false (nomatch ·) (not_not_intro hpost.2)
    | error e =>
      rw [hu] at hpost
      obtain ⟨rfl, hbad⟩ := hpost
      exact iff_of_true rfl hbad
  rw [Machine.run_ne_error_iff (I := Stm32Afio.Wf) (C := fun _ o => o.PortsExist) hI hC hwf]
  refine Machine.takes_forall_iff (I := Stm32Afio.Wf) (fun t o ht ho => ?_) hwf
  have hpost := @step_post t o ht
  cases hu : t.step o with
  | ok u => exact ⟨u, rfl, ht.step hu⟩
  | error e =>
    rw [hu] at hpost
    exact absurd ho hpost.2

/-- All lines at the last port, and a reset. -/
theorem gpio_access_iff_portG : ∃ s, Stm32Afio.init.reset = .ok s ∧
    Machine.run Stm32Afio.step s [.write 0x08 0x6666, .reset] ≠ .error .outOfBounds := by
  obtain ⟨s, hs⟩ := reset_ok wf_init
  refine ⟨s, hs, (gpio_access_iff hs).2 ?_⟩
  simp only [List.forall_mem_cons]
  refine ⟨fun _ => by decide, trivial, by simp⟩

/-- Port `0x7` for line 0: there is no port behind `GPIOG`. -/
theorem not_gpio_access_port7 : ∃ s, Stm32Afio.init.reset = .ok s ∧
    Machine.run Stm32Afio.step s [.write 0x08 0x7] = .error .outOfBounds := by
  obtain ⟨s, hs⟩ := reset_ok wf_init
  have herr : s.step (.write 0x08 0x7) = .error .outOfBounds :=
    exticrWrite_error (by decide) false (by decide)
  exact ⟨s, hs, by rw [Machine.run_cons, herr, Machine.error_bind]⟩

end Bluepill

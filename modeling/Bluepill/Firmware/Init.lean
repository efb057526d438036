/-
  The functions of `stm32f10x_usart.c` that set up the UART.

  `USART_Init` computes the divider of the clock from the rate that is asked for, in hundredths,
  and rounds the fraction to sixteenths; the emulated UART divides the clock by it.  The rate is
  the nearest one, unless the fraction is at least `0.97`: it is then rounded up to a full unit,
  which is dropped (`usartInit_rate`).

  Until the UART is enabled, bytes of the host are lost.
-/
import Bluepill.Firmware.Serial
import Bluepill.Uart.Access
import Bluepill.Uart.Baud

namespace Bluepill

open Machine Program

namespace Firmware

open Prog

/-- `USART_InitTypeDef`. -/
structure UsartInit where
  baudRate : BitVec 32
  wordLength : BitVec 16
  stopBits : BitVec 16
  parity : BitVec 16
  mode : BitVec 16
  hardwareFlowControl : BitVec 16

/-- The parameters that `assert_param` checks. -/
structure UsartInit.Valid (init : UsartInit) : Prop where
  baudRate : 0 < init.baudRate.toNat ∧ init.baudRate.toNat < 0x0044aa21
  wordLength : init.wordLength = 0x0000 ∨ init.wordLength = 0x1000
  parity : init.parity = 0x0000 ∨ init.parity = 0x0400 ∨ init.parity = 0x0600
  mode : init.mode &&& 0xfff3 = 0

/-- A register is read, and written with what the function gives. -/
def modifyReg (offset : ℕ) (f : BitVec 16 → BitVec 16) : Fw Unit := do
  let tmpreg ← request (.read offset 2)
  let _ ← request (.write offset ((f (tmpreg.setWidth 16)).setWidth 64) 2)

def CR1_OVER8_Set : BitVec 16 := 0x8000
def CR1_UE_Set : BitVec 16 := 0x2000

/-- The divider, in hundredths. -/
def integerDivider (cr1 : BitVec 16) (apbclock baudRate : BitVec 32) : BitVec 32 :=
  if cr1 &&& CR1_OVER8_Set ≠ 0 then 25 * apbclock / (2 * baudRate) else 25 * apbclock / (4 * baudRate)

/-- The divider, in sixteenths. -/
def brrValue (cr1 : BitVec 16) (integerdivider : BitVec 32) : BitVec 16 :=
  let tmpreg := (integerdivider / 100) <<< 4
  let fractionaldivider := integerdivider - 100 * (tmpreg >>> 4)
  let tmpreg := if cr1 &&& CR1_OVER8_Set ≠ 0 then tmpreg ||| (fractionaldivider * 8 + 50) / 100 &&& 0x07
    else tmpreg ||| (fractionaldivider * 16 + 50) / 100 &&& 0x0f
  tmpreg.setWidth 16

/-- `USART_Init`; `RCC_GetClocksFreq` has given `apbclock`. -/
def usartInit (init : UsartInit) (apbclock : BitVec 32) : Fw Unit := do
  modifyReg 0x10 fun tmpreg => tmpreg &&& 0xcfff ||| init.stopBits
  modifyReg 0x0c fun tmpreg => tmpreg &&& 0xe9f3 ||| (init.wordLength ||| init.parity ||| init.mode)
  modifyReg 0x14 fun tmpreg => tmpreg &&& 0xfcff ||| init.hardwareFlowControl
  let cr1 ← request (.read 0x0c 2)
  let integerdivider := integerDivider (cr1.setWidth 16) apbclock init.baudRate
  let cr1 ← request (.read 0x0c 2)
  let _ ← request (.write 0x08 ((brrValue (cr1.setWidth 16) integerdivider).setWidth 64) 2)

/-- `USART_Cmd`. -/
def usartCmd (newState : Bool) : Fw Unit :=
  if newState then modifyReg 0x0c fun cr1 => cr1 ||| CR1_UE_Set else modifyReg 0x0c fun cr1 => cr1 &&& ~~~ CR1_UE_Set

/-- The parameters of `init_rs232`. -/
def rs232Init : UsartInit where
  baudRate := 9600
  wordLength := 0x0000
  stopBits := 0x0000
  parity := 0x0000
  mode := 0x000c
  hardwareFlowControl := 0x0000

/-- The end of `init_rs232`. -/
def initRs232 (apbclock : BitVec 32) : Fw Unit := do
  usartInit rs232Init apbclock
  usartCmd true

end Firmware

open Firmware

/-! ## The rate -/

section
variable {apb baud q : ℕ}

/-- The divider as a number. -/
def divider (q : ℕ) : ℕ := q / 100 * 16 + (q % 100 * 16 + 50) / 100 % 16

/-- The full unit that the mask drops from a fraction that is rounded up to it. -/
def dropped (q : ℕ) : ℕ := if q % 100 < 97 then 0 else 16

/-- With the unit that is dropped, the divider is the nearest one. -/
theorem divider_add_dropped (q : ℕ) : divider q + dropped q = (16 * q + 50) / 100 := by
  rw [divider, dropped]
  split
  case isTrue h =>
    have hmod : (q % 100 * 16 + 50) / 100 % 16 = (q % 100 * 16 + 50) / 100 := Nat.mod_eq_of_lt (by omega)
    omega
  case isFalse h =>
    have hunit : (q % 100 * 16 + 50) / 100 = 16 := by omega
    omega

theorem divider_lt (h : q < 409600) : divider q < 2 ^ 16 := by
  unfold divider
  omega

/-- The divider for a rate is not above the exact one by more than a half, with the unit that is dropped. -/
theorem divider_rate_le (hq : q = 25 * apb / (4 * baud)) :
    100 * ((divider q + dropped q) * baud) ≤ 100 * apb + 50 * baud := by
  have hdiv : q * (4 * baud) ≤ 25 * apb := by
    rw [hq]
    exact Nat.div_mul_le_self _ _
  obtain ⟨d, hd⟩ : ∃ d, d = divider q + dropped q := ⟨_, rfl⟩
  have hround : 100 * d ≤ 16 * q + 50 := by
    rw [hd, divider_add_dropped]
    exact Nat.mul_div_le _ _
  rw [← hd]
  calc 100 * (d * baud) = 100 * d * baud := by ring
    _ ≤ (16 * q + 50) * baud := Nat.mul_le_mul_right baud hround
    _ = 4 * (q * (4 * baud)) + 50 * baud := by ring
    _ ≤ 100 * apb + 50 * baud := by omega

/-- It is not above the frequency of the clock. -/
theorem divider_le_clock (hbaud : 0 < baud) (hq : q = 25 * apb / (4 * baud)) (hd : 0 < divider q) : divider q ≤ apb := by
  have hle := divider_rate_le hq
  obtain ⟨e, he⟩ : ∃ e, divider q + dropped q = e + 1 := ⟨divider q + dropped q - 1, by omega⟩
  have hhalf : (2 * e + 1) * baud ≤ 2 * apb := by
    rw [he] at hle
    linarith
  have hmul : (2 * e + 1) * 1 ≤ (2 * e + 1) * baud := Nat.mul_le_mul_left _ hbaud
  omega

variable {cr1 : BitVec 16} {apbclock baudRate : BitVec 32}

theorem integerDivider_toNat (hcr1 : cr1 &&& CR1_OVER8_Set = 0) (happ : apbclock.toNat ≤ 72000000)
    (hbaud : baudRate.toNat < 0x0044aa21) :
    (integerDivider cr1 apbclock baudRate).toNat = 25 * apbclock.toNat / (4 * baudRate.toNat) := by
  rw [integerDivider, if_neg (not_not.2 hcr1), BitVec.toNat_udiv, BitVec.toNat_mul, BitVec.toNat_mul]
  congr 1
  · exact Nat.mod_eq_of_lt (by show 25 * apbclock.toNat < _; omega)
  · exact Nat.mod_eq_of_lt (by show 4 * baudRate.toNat < _; omega)

theorem brrValue_toNat (hcr1 : cr1 &&& CR1_OVER8_Set = 0) {d : BitVec 32} (hd : d.toNat < 409600) :
    (brrValue cr1 d).toNat = divider d.toNat := by
  have htmp : ((d / 100) <<< 4).toNat = d.toNat / 100 * 2 ^ 4 := by
    rw [BitVec.toNat_shiftLeft, BitVec.toNat_udiv, Nat.shiftLeft_eq]
    exact Nat.mod_eq_of_lt (by show d.toNat / 100 * 2 ^ 4 < 2 ^ 32; omega)
  have hunit : ((d / 100) <<< 4 >>> 4).toNat = d.toNat / 100 := by
    rw [BitVec.toNat_ushiftRight, htmp, Nat.shiftRight_eq_div_pow, Nat.mul_div_cancel _ (by decide)]
  obtain ⟨f, hf⟩ : ∃ f, f = d - 100 * ((d / 100) <<< 4 >>> 4) := ⟨_, rfl⟩
  have hfrac : f.toNat = d.toNat % 100 := by
    rw [hf, BitVec.toNat_sub, BitVec.toNat_mul, hunit]
    show (2 ^ 32 - 100 * (d.toNat / 100) % 2 ^ 32 + d.toNat) % 2 ^ 32 = _
    omega
  have hround : ((f * 16 + 50) / 100 &&& 0x0f).toNat = (d.toNat % 100 * 16 + 50) / 100 % 2 ^ 4 := by
    have hsum : (f * 16 + 50).toNat = d.toNat % 100 * 16 + 50 := by
      rw [BitVec.toNat_add, BitVec.toNat_mul, hfrac]
      show (d.toNat % 100 * 16 % 2 ^ 32 + 50) % 2 ^ 32 = _
      omega
    rw [BitVec.toNat_and, BitVec.toNat_udiv, hsum]
    exact Nat.and_two_pow_sub_one_eq_mod _ 4
  rw [brrValue]
  rw [← hf, if_neg (not_not.2 hcr1), BitVec.toNat_setWidth, BitVec.toNat_or, htmp, hround,
    Word.or_eq_add (Dvd.intro_left _ rfl) (Nat.mod_lt _ (by decide))]
  exact Nat.mod_eq_of_lt (by omega)

end

/-! ## The registers -/

namespace Stm32Uart

variable {around : UartEnv} {s : Stm32Uart} {clk : BitVec 32}

/-- The port after a write of `v` to `CR1`. -/
def Port.setCr1 (p : Port) (v : BitVec 16) : Port :=
  { p with
    CR1 := laneValue p.CR1 0x0c (v.setWidth 64) 2 &&& 0x00003fff
    UE := v.getLsbD 13
    TE := v.getLsbD 3
    RE := v.getLsbD 2 }

/-- The port after a write of `v` to `BRR`, with the clock `clk`. -/
def Port.setBrr (p : Port) (clk : BitVec 32) (v : BitVec 16) : Port :=
  { p with BRR := v.setWidth 32, bitsPerSec := clk / v.setWidth 32 }

theorem getLsbD_lane {offset : ℕ} (hoffset : offset % 4 = 0) (old : BitVec 32) (v : BitVec 16) {i : ℕ} (hi : i < 16) :
    (laneValue old offset (v.setWidth 64) 2).getLsbD i = v.getLsbD i := by
  have hlane : laneValue old offset (v.setWidth 64) 2 = laneValue old 0x00 (v.setWidth 64) 2 := by
    simp [laneValue, lane, hoffset]
  rw [hlane, getLsbD_laneValue old _ (.inl rfl) hi, BitVec.getLsbD_setWidth]
  simp [show i < 64 by omega]

/-- A register that is read as it is. -/
theorem setWidth_read (reg : BitVec 32) : (extract64 (reg.setWidth 64) 0 16).setWidth 16 = reg.setWidth 16 := by
  rw [extract64, Word.setWidth_extract_zero _ (by decide) (by decide)]
  exact BitVec.setWidth_setWidth_of_le _ (by decide)

theorem port_setCr1_CR1 (p : Port) (v : BitVec 16) {i : ℕ} (hi : i < 14) : (p.setCr1 v).CR1.getLsbD i = v.getLsbD i := by
  have hmask : ∀ i < 14, (0x00003fff : BitVec 32).getLsbD i = true := by decide
  rw [Port.setCr1, BitVec.getLsbD_and, hmask i hi, Bool.and_true, getLsbD_lane (by decide) _ _ (by omega)]

/-- A write to `CR1`. -/
theorem Attached.write_cr1 (h : Attached around s) (now : BitVec 64) (v : BitVec 16) : ∃ t,
    s.write .shipped { around with now } 0x0c (v.setWidth 64) 2 = .ok t ∧ Attached around t ∧
      t.port = s.port.setCr1 v ∧ t.sent = s.sent ∧ t.waiting = s.waiting := by
  obtain ⟨w, hw⟩ : ∃ w, w = laneValue s.CR1 0x0c (v.setWidth 64) 2 := ⟨_, rfl⟩
  have hbit : ∀ i < 16, (extract32 w i 1 != 0) = v.getLsbD i := by
    intro i hi
    rw [extract32, Word.extract_one _ (by omega), hw, getLsbD_lane (by decide) _ _ hi]
    cases v.getLsbD i <;> rfl
  have hmap : checkMap { around with now } { s with CR1_UE := v.getLsbD 13 } = .ok () := by
    simp [checkMap, h.map]
  obtain ⟨t, ht⟩ : ∃ t : Stm32Uart, t = { s with
    CR1_UE := v.getLsbD 13
    CR1_TXEIE := v.getLsbD 7
    CR1_TCIE := v.getLsbD 6
    CR1_RXNEIE := v.getLsbD 5
    CR1_TE := v.getLsbD 3
    CR1_RE := v.getLsbD 2
    CR1 := w &&& 0x00003fff } := ⟨_, rfl⟩
  have hwrite : s.write .shipped { around with now } 0x0c (v.setWidth 64) 2 = .ok t.updateIrq := by
    show cr1Write { around with now } s (laneValue s.CR1 0x0c (v.setWidth 64) 2) = _
    rw [← hw, cr1Write, hbit 13 (by decide), hbit 7 (by decide), hbit 6 (by decide), hbit 5 (by decide),
      hbit 3 (by decide), hbit 2 (by decide)]
    dsimp only
    rw [hmap, ht]
    rfl
  have hport : t.port = s.port.setCr1 v := by
    rw [ht, hw]
    rfl
  have hCR1 : ∀ i < 14, v.getLsbD i = (w &&& 0x00003fff).getLsbD i := by
    intro i hi
    rw [← port_setCr1_CR1 s.port v hi, hw]
    rfl
  have hattached : Attached around t := by
    rw [ht]
    exact ⟨h.pin, h.map, h.chr, hCR1 13 (by decide), hCR1 3 (by decide), hCR1 2 (by decide), h.TXE, h.TC, h.ORE,
      h.receiving⟩
  refine ⟨t.updateIrq, hwrite, hattached.of_port t.updateIrq_port, t.updateIrq_port.trans hport, ?_, ?_⟩
  · rw [updateIrq_sent, ht]
  · rw [updateIrq_waiting, ht]
    rfl

/-- A write to `BRR`, when the clock can be divided by the value. -/
theorem Attached.write_brr (h : Attached around s) (now : BitVec 64) (v : BitVec 16)
    (hclk : around.rcc.getPeriphFreq s.periph = .ok clk) (hv : v ≠ 0 → clk ≠ 0 → clk / v.setWidth 32 ≠ 0) : ∃ t,
    s.write .shipped { around with now } 0x08 (v.setWidth 64) 2 = .ok t ∧ Attached around t ∧
      t.port = s.port.setBrr clk v ∧ t.sent = s.sent ∧ t.waiting = s.waiting := by
  have hlane : laneValue s.BRR 0x08 (v.setWidth 64) 2 &&& 0x0000ffff = v.setWidth 32 := by
    have hhigh : ∀ i < 32, 16 ≤ i → (0x0000ffff : BitVec 32).getLsbD i = false := by decide
    refine BitVec.eq_of_getLsbD_eq fun i hi => ?_
    by_cases hlow : i < 16
    · show (_ &&& BitVec.ofNat 32 0xffff).getLsbD i = _
      rw [Word.getLsbD_and_ffff (by decide) _ hlow, getLsbD_lane (by decide) _ _ hlow, BitVec.getLsbD_setWidth]
      simp [hi]
    · rw [BitVec.getLsbD_and, hhigh i hi (by omega), Bool.and_false, BitVec.getLsbD_setWidth,
        BitVec.getLsbD_of_ge v i (by omega), Bool.and_false]
  have hwrite : s.write .shipped { around with now } 0x08 (v.setWidth 64) 2 =
      baudUpdate { around with now } { s with BRR := v.setWidth 32 } := by
    rw [← hlane]
    rfl
  rw [hwrite, baudUpdate]
  dsimp only
  rw [hclk, ok_bind]
  by_cases hzero : v.setWidth 32 = 0 ∨ clk = 0
  · have hdiv : clk / v.setWidth 32 = 0 := by
      rcases hzero with h | h
      · rw [h]
        exact BitVec.udiv_zero
      · rw [h]
        exact BitVec.zero_udiv
    rw [if_pos hzero]
    refine ⟨_, rfl, ⟨h.pin, h.map, h.chr, h.CR1_UE, h.CR1_TE, h.CR1_RE, h.TXE, h.TC, h.ORE, h.receiving⟩, ?_, rfl, rfl⟩
    rw [Port.setBrr, hdiv]
    rfl
  · rw [not_or] at hzero
    have hne : v ≠ 0 := by
      rintro rfl
      exact hzero.1 rfl
    rw [if_neg (not_or.2 hzero), if_neg (hv hne hzero.2)]
    exact ⟨_, rfl, ⟨h.pin, h.map, h.chr, h.CR1_UE, h.CR1_TE, h.CR1_RE, h.TXE, h.TC, h.ORE, h.receiving⟩, rfl, rfl, rfl⟩

end Stm32Uart

/-! ## The functions -/

/-- The UART is disabled, and set up as in `p`; nothing has been sent or received. -/
structure Off (around : UartEnv) (p : Stm32Uart.Port) (s : Serial) : Prop where
  attached : s.uart.Attached around
  port : s.uart.port = p
  UE : s.uart.CR1_UE = false
  waiting : s.uart.waiting = []
  sent : s.uart.sent = []
  delivered : s.delivered = []

section
variable {around : UartEnv} {p : Stm32Uart.Port} {s : Serial} {c x : List (BitVec 8)} {I B : Serial → Prop}

theorem Off.same {uart : Stm32Uart} (h : Off around p s) (hport : uart.port = s.uart.port)
    (hsent : uart.sent = s.uart.sent) (hwaiting : uart.waiting = s.uart.waiting) : Off around p { s with uart } :=
  ⟨h.attached.of_port hport, hport.trans h.port, (congrArg Stm32Uart.Port.UE hport).trans h.UE,
    hwaiting.trans h.waiting, hsent.trans h.sent, h.delivered⟩

theorem Off.stable : Stable (Serial.host around) (Off around p) := by
  intro s e h
  cases e with
  | byte b =>
    rw [Serial.host]
    split
    case isTrue =>
      obtain ⟨t, ht, hport, hsent, hwaiting⟩ := Stm32Uart.receive_disabled h.UE (s.env around) b
      rw [ht, h.UE]
      exact ⟨_, rfl, h.same hport hsent hwaiting⟩
    case isFalse => exact ⟨s, rfl, h⟩
  | rxTimer => exact Serial.host_expires h.attached .rx fun _ => h.same
  | txTimer => exact Serial.host_expires h.attached .tx fun _ => h.same
  | txDmaTimer => exact Serial.host_expires h.attached .txDma fun _ => h.same
  | time now => exact ⟨_, rfl, h.attached, h.port, h.UE, h.waiting, h.sent, h.delivered⟩

/-- A register that is read as `r` and then written. -/
theorem modifyReg_triple {P R : Serial → Prop} {offset : ℕ} {f : BitVec 16 → BitVec 16} (hP : Stable (Serial.host around) P)
    (hR : Stable (Serial.host around) R) (hI : ∀ s, P s → I s) (hI' : ∀ s, R s → I s) (seen : BitVec 16 → Prop)
    (hread : ∀ s, P s → ∃ v, s.uart.read offset 2 = .ok (v, s.uart) ∧ seen (v.setWidth 16))
    (hwrite : ∀ s r, P s → seen r →
      ∃ uart, s.uart.write .shipped (s.env around) offset ((f r).setWidth 64) 2 = .ok uart ∧ R { s with uart }) :
    Triple (Serial.exec around) (Serial.host around) I B (fun _ => R) P (modifyReg offset f) := by
  have hM : ∀ v : BitVec 64, Stable (Serial.host around) fun s => P s ∧ seen (v.setWidth 16) := by
    rintro v s e ⟨hs, hv⟩
    obtain ⟨t, ht, hPt⟩ := hP s e hs
    exact ⟨t, ht, hPt, hv⟩
  refine (Triple.request (R := fun v s => P s ∧ seen (v.setWidth 16)) hP hI ?_ hM fun _ s hs => hI s hs.1).bind
    fun v => (Triple.request (R := fun _ => R) (hM v) (fun s hs => hI s hs.1) ?_ (fun _ => hR) fun _ => hI').bind
      fun _ => .ret hR hI' fun _ hs => hs
  · intro s hs
    obtain ⟨v, hv, hseen⟩ := hread s hs
    refine ⟨v, s, ?_, hs, hseen⟩
    rw [Serial.exec, hv]
    rfl
  · rintro s ⟨hs, hseen⟩
    obtain ⟨uart, huart, hRs⟩ := hwrite s _ hs hseen
    refine ⟨0, { s with uart }, ?_, hRs⟩
    rw [Serial.exec, huart]
    rfl

/-- A register that the firmware does not look at later. -/
theorem Off.modify_other {offset : ℕ} {f : BitVec 16 → BitVec 16} (hI : ∀ s, Off around p s → I s)
    (hoffset : offset = 0x10 ∨ offset = 0x14) :
    Triple (Serial.exec around) (Serial.host around) I B (fun _ => Off around p) (Off around p) (modifyReg offset f) := by
  refine modifyReg_triple Off.stable Off.stable hI hI (fun _ => True) ?_ ?_
  · rintro s -
    rcases hoffset with rfl | rfl
    · exact ⟨_, rfl, trivial⟩
    · exact ⟨_, rfl, trivial⟩
  · rintro s r h -
    rcases hoffset with rfl | rfl
    · exact ⟨_, rfl, h.same rfl rfl rfl⟩
    · refine ⟨_, rfl, ?_⟩
      dsimp only [Stm32Uart.cr3Write]
      split
      · exact h.same rfl rfl rfl
      · exact h.same rfl rfl rfl

theorem read_cr1 (u : Stm32Uart) : ∃ v, u.read 0x0c 2 = .ok (v, u) ∧ v.setWidth 16 = u.CR1.setWidth 16 :=
  ⟨_, rfl, Stm32Uart.setWidth_read u.CR1⟩

/-- `CR1` is written while the UART stays disabled. -/
theorem Off.modify_cr1 {f : BitVec 16 → BitVec 16} (hI : ∀ p s, Off around p s → I s)
    (hf : (f (p.CR1.setWidth 16)).getLsbD 13 = false) :
    Triple (Serial.exec around) (Serial.host around) I B (fun _ => Off around (p.setCr1 (f (p.CR1.setWidth 16))))
      (Off around p) (modifyReg 0x0c f) := by
  refine modifyReg_triple Off.stable Off.stable (hI p) (hI _) (fun r => r = p.CR1.setWidth 16) ?_ ?_
  · intro s h
    obtain ⟨v, hv, hr⟩ := read_cr1 s.uart
    exact ⟨v, hv, hr.trans (congrArg (fun q => q.CR1.setWidth 16) h.port)⟩
  · rintro s _ h rfl
    obtain ⟨t, ht, hattached, hport, hsent, hwaiting⟩ := h.attached.write_cr1 s.now (f (p.CR1.setWidth 16))
    refine ⟨t, ht, hattached, ?_, ?_, hwaiting.trans h.waiting, hsent.trans h.sent, h.delivered⟩
    · rw [hport, h.port]
    · rw [← hf]
      exact congrArg Stm32Uart.Port.UE hport

/-- The oversampling mode does not exist in the emulated UART. -/
theorem over8_clear (v : BitVec 16) : (p.setCr1 v).CR1.setWidth 16 &&& CR1_OVER8_Set = 0 := by
  have hbit : ∀ i < 16, ((0x00003fff : BitVec 32).getLsbD i && CR1_OVER8_Set.getLsbD i) = false := by decide
  refine BitVec.eq_of_getLsbD_eq fun i hi => ?_
  rw [BitVec.getLsbD_and, BitVec.getLsbD_setWidth, Stm32Uart.Port.setCr1, BitVec.getLsbD_and, Bool.and_assoc, Bool.and_assoc,
    hbit i hi]
  simp

/-- The value for `CR1`. -/
def cr1Init (init : UsartInit) (tmpreg : BitVec 16) : BitVec 16 :=
  tmpreg &&& 0xe9f3 ||| (init.wordLength ||| init.parity ||| init.mode)

theorem Firmware.UsartInit.Valid.cr1 {init : UsartInit} (h : init.Valid) {tmpreg : BitVec 16} (htmp : tmpreg.getLsbD 13 = false) :
    (cr1Init init tmpreg).getLsbD 13 = false := by
  have hlength : init.wordLength.getLsbD 13 = false := by
    rcases h.wordLength with h | h
    · rw [h]; decide
    · rw [h]; decide
  have hparity : init.parity.getLsbD 13 = false := by
    rcases h.parity with h | h | h
    · rw [h]; decide
    · rw [h]; decide
    · rw [h]; decide
  have hmode : init.mode.getLsbD 13 = false := by
    have hand : (init.mode &&& 0xfff3).getLsbD 13 = false := by
      rw [h.mode]
      decide
    rw [BitVec.getLsbD_and] at hand
    simpa using hand
  rw [cr1Init, BitVec.getLsbD_or, BitVec.getLsbD_or, BitVec.getLsbD_or, BitVec.getLsbD_and, htmp, hlength, hparity, hmode]
  rfl

/-- **`USART_Init`**, for a rate that the divider can have. -/
theorem usartInit_triple {init : UsartInit} {apbclock : BitVec 32} {q : ℕ} (hvalid : init.Valid)
    (happ : apbclock.toNat ≤ 72000000)
    (hq : q = 25 * apbclock.toNat / (4 * init.baudRate.toNat)) (hfits : q < 409600)
    (hp : p.CR1.getLsbD 13 = false) (hclk : around.rcc.getPeriphFreq p.periph = .ok apbclock)
    (hI : ∀ p s, Off around p s → I s) :
    Triple (Serial.exec around) (Serial.host around) I B
      (fun _ => Off around ((p.setCr1 (cr1Init init (p.CR1.setWidth 16))).setBrr apbclock (BitVec.ofNat 16 (divider q))))
      (Off around p) (usartInit init apbclock) := by
  obtain ⟨p', hp'⟩ : ∃ p', p' = p.setCr1 (cr1Init init (p.CR1.setWidth 16)) := ⟨_, rfl⟩
  have hover8 : p'.CR1.setWidth 16 &&& CR1_OVER8_Set = 0 := by
    rw [hp']
    exact over8_clear _
  have hbrr : ∀ v w : BitVec 64, v.setWidth 16 = p'.CR1.setWidth 16 → w.setWidth 16 = p'.CR1.setWidth 16 →
      brrValue (w.setWidth 16) (integerDivider (v.setWidth 16) apbclock init.baudRate) = BitVec.ofNat 16 (divider q) := by
    intro v w hv hw
    have hdiv := integerDivider_toNat hover8 happ hvalid.baudRate.2
    refine BitVec.eq_of_toNat_eq ?_
    rw [hv, hw, brrValue_toNat hover8 (by omega), hdiv, ← hq, BitVec.toNat_ofNat]
    exact (Nat.mod_eq_of_lt (divider_lt hfits)).symm
  have hdivides : BitVec.ofNat 16 (divider q) ≠ 0 → apbclock ≠ 0 →
      apbclock / (BitVec.ofNat 16 (divider q)).setWidth 32 ≠ 0 := by
    intro hne _ hzero
    have hlt := divider_lt hfits
    have hpos : 0 < divider q := by
      refine Nat.pos_of_ne_zero fun h => hne ?_
      rw [h]
      rfl
    have hle := divider_le_clock hvalid.baudRate.1 hq hpos
    have hnat := congrArg BitVec.toNat hzero
    rw [BitVec.toNat_udiv, BitVec.toNat_setWidth, BitVec.toNat_ofNat, Nat.mod_eq_of_lt hlt,
      Nat.mod_eq_of_lt (by omega)] at hnat
    exact absurd hnat (Nat.div_pos hle hpos).ne'
  have hread : ∀ s, Off around p' s → ∃ v t, s.exec around (.read 0x0c 2) = .ok (v, t) ∧
      v.setWidth 16 = p'.CR1.setWidth 16 ∧ Off around p' t := by
    intro s h
    obtain ⟨v, hv, hr⟩ := read_cr1 s.uart
    refine ⟨v, s, ?_, hr.trans (congrArg (fun q => q.CR1.setWidth 16) h.port), h⟩
    rw [Serial.exec, hv]
    rfl
  rw [← hp']
  refine (Off.modify_other (hI p) (.inl rfl)).bind fun _ => ?_
  refine Triple.bind (R := fun _ => Off around p') ?_ fun _ => ?_
  · rw [hp']
    refine Off.modify_cr1 (f := cr1Init init) hI (hvalid.cr1 ?_)
    rw [BitVec.getLsbD_setWidth, hp]
    rfl
  refine (Off.modify_other (hI p') (.inr rfl)).bind fun _ => ?_
  have hseen : ∀ {r : Prop}, Stable (Serial.host around) fun s => r ∧ Off around p' s := by
    rintro r s e ⟨hr, hs⟩
    obtain ⟨t, ht, hPt⟩ := Off.stable s e hs
    exact ⟨t, ht, hr, hPt⟩
  refine (Triple.request (R := fun v s => v.setWidth 16 = p'.CR1.setWidth 16 ∧ Off around p' s) Off.stable (hI p') hread
    (fun _ => hseen) fun _ s hs => hI p' s hs.2).bind fun v => ?_
  refine (Triple.request (R := fun w s => (v.setWidth 16 = p'.CR1.setWidth 16 ∧ w.setWidth 16 = p'.CR1.setWidth 16) ∧
    Off around p' s) hseen (fun s hs => hI p' s hs.2) ?_ (fun _ => hseen) fun _ s hs => hI p' s hs.2).bind fun w => ?_
  · rintro s ⟨hv, h⟩
    obtain ⟨w, t, ht, hw, h⟩ := hread s h
    exact ⟨w, t, ht, ⟨hv, hw⟩, h⟩
  refine (Triple.request (R := fun _ => Off around (p'.setBrr apbclock (BitVec.ofNat 16 (divider q)))) hseen
    (fun s hs => hI p' s hs.2) ?_ (fun _ => Off.stable) fun _ => hI _).bind fun _ => .ret Off.stable (hI _) fun _ hs => hs
  rintro s ⟨⟨hv, hw⟩, h⟩
  rw [hbrr v w hv hw]
  have hclk' : around.rcc.getPeriphFreq s.uart.periph = .ok apbclock := by
    rw [← hclk, show s.uart.periph = p'.periph from congrArg Stm32Uart.Port.periph h.port, hp']
    rfl
  obtain ⟨t, ht, hattached, hport, hsent, hwaiting⟩ := h.attached.write_brr s.now (BitVec.ofNat 16 (divider q)) hclk' hdivides
  refine ⟨0, { s with uart := t }, ?_, hattached, ?_, ?_, hwaiting.trans h.waiting, hsent.trans h.sent, h.delivered⟩
  · rw [Serial.exec, Serial.env, ht]
    rfl
  · rw [hport, h.port]
  · exact (congrArg Stm32Uart.Port.UE hport).trans h.UE

/-- **`USART_Cmd`** enables the UART. -/
theorem usartCmd_triple (hI : ∀ s, Off around p s → I s) (hI' : ∀ s, Out around false [] [] s → I s)
    (hTE : p.CR1.getLsbD 3 = true) (hRE : p.CR1.getLsbD 2 = true) :
    Triple (Serial.exec around) (Serial.host around) I B (fun _ => Out around false [] []) (Off around p)
      (usartCmd true) := by
  have hbit : ∀ i < 16, (p.CR1.setWidth 16 ||| CR1_UE_Set).getLsbD i = (p.CR1.getLsbD i || CR1_UE_Set.getLsbD i) := by
    intro i hi
    rw [BitVec.getLsbD_or, BitVec.getLsbD_setWidth, decide_eq_true hi, Bool.true_and]
  rw [usartCmd, if_pos rfl]
  refine modifyReg_triple Off.stable Out.stable hI hI' (fun r => r = p.CR1.setWidth 16) ?_ ?_
  · intro s h
    obtain ⟨v, hv, hr⟩ := read_cr1 s.uart
    exact ⟨v, hv, hr.trans (congrArg (fun q => q.CR1.setWidth 16) h.port)⟩
  · rintro s _ h rfl
    obtain ⟨t, ht, hattached, hport, hsent, hwaiting⟩ := h.attached.write_cr1 s.now (p.CR1.setWidth 16 ||| CR1_UE_Set)
    refine ⟨t, ht, ⟨hattached, ?_, ?_, ?_⟩, hsent.trans h.sent, ?_, fun hno => (Bool.false_ne_true hno).elim⟩
    · refine (congrArg Stm32Uart.Port.UE hport).trans ((hbit 13 (by decide)).trans ?_)
      exact Bool.or_true _
    · refine (congrArg Stm32Uart.Port.TE hport).trans ((hbit 3 (by decide)).trans ?_)
      rw [hTE, Bool.true_or]
    · refine (congrArg Stm32Uart.Port.RE hport).trans ((hbit 2 (by decide)).trans ?_)
      rw [hRE, Bool.true_or]
    · rw [hwaiting, h.waiting]
      exact h.delivered

/-- `USART_Cmd` once more. -/
theorem usartCmd_again_triple (hI : ∀ s, Out around false c x s → I s) :
    Triple (Serial.exec around) (Serial.host around) I B (fun _ => Out around false c x) (Out around false c x)
      (usartCmd true) := by
  rw [usartCmd, if_pos rfl]
  refine modifyReg_triple Out.stable Out.stable hI hI (fun r => r.getLsbD 3 = true ∧ r.getLsbD 2 = true) ?_ ?_
  · intro s h
    obtain ⟨v, hv, hr⟩ := read_cr1 s.uart
    refine ⟨v, hv, ?_, ?_⟩
    · rw [hr, BitVec.getLsbD_setWidth, ← h.usable.CR1_TE, h.usable.TE]
      rfl
    · rw [hr, BitVec.getLsbD_setWidth, ← h.usable.CR1_RE, h.usable.RE]
      rfl
  · rintro s r h ⟨hTE, hRE⟩
    obtain ⟨t, ht, hattached, hport, hsent, hwaiting⟩ := h.usable.write_cr1 s.now (r ||| CR1_UE_Set)
    refine ⟨t, ht, ⟨hattached, ?_, ?_, ?_⟩, hsent.trans h.sent, ?_, fun hno => (Bool.false_ne_true hno).elim⟩
    · refine (congrArg Stm32Uart.Port.UE hport).trans ((BitVec.getLsbD_or ..).trans ?_)
      exact Bool.or_true _
    · refine (congrArg Stm32Uart.Port.TE hport).trans ((BitVec.getLsbD_or ..).trans ?_)
      rw [hTE, Bool.true_or]
    · refine (congrArg Stm32Uart.Port.RE hport).trans ((BitVec.getLsbD_or ..).trans ?_)
      rw [hRE, Bool.true_or]
    · rw [hwaiting]
      exact h.delivered

theorem rs232Init_valid : rs232Init.Valid := by
  refine ⟨by decide, .inl rfl, .inl rfl, by decide⟩

/-- **`init_rs232`**, from the UART as it is after a reset. -/
theorem initRs232_triple {apbclock : BitVec 32} (happ : apbclock.toNat ≤ 72000000) (hp : p.CR1 = 0)
    (hclk : around.rcc.getPeriphFreq p.periph = .ok apbclock) (hI : ∀ p s, Off around p s → I s)
    (hI' : ∀ s, Out around false [] [] s → I s) :
    Triple (Serial.exec around) (Serial.host around) I B (fun _ => Out around false [] []) (Off around p)
      (initRs232 apbclock) := by
  have hbaud : rs232Init.baudRate.toNat = 9600 := rfl
  have hcr1 : cr1Init rs232Init (p.CR1.setWidth 16) = 0x000c := by
    rw [hp]
    decide
  refine (usartInit_triple rs232Init_valid happ rfl (by rw [hbaud]; omega) (by rw [hp]; decide)
    hclk hI).bind fun _ => usartCmd_triple (hI _) hI' ?_ ?_
  · rw [hcr1]
    exact Stm32Uart.port_setCr1_CR1 p 0x000c (by decide)
  · rw [hcr1]
    exact Stm32Uart.port_setCr1_CR1 p 0x000c (by decide)

end

/-! ## The rate that the UART gets -/

/-- `UART1` can have a clock: after a reset, once it is enabled, it is that of the internal oscillator. -/
theorem exists_clocked : ∃ rcc : Stm32Rcc, rcc.getPeriphFreq .UART1 = .ok 8000000 := by
  have h : Post (fun b₀ => Post (fun b => b.freq 21 = 8000000) (fun _ => False)
      (run (Board.step (Stm32Uart.client .shipped .UART1 true 0) zeroHost 1) b₀
        [.rcc Stm32Uart.ready Stm32Rcc.Access.reset, .rcc Stm32Uart.ready (Stm32Rcc.Access.write 0x18 0x4000 4)]))
      (fun _ => False) Stm32Uart.board := by
    decide +kernel
  obtain ⟨b₀, -, h⟩ := post_ok.1 h
  obtain ⟨b, -, hfreq⟩ := post_ok.1 h
  exact ⟨b.rcc, (b.rcc.getPeriphFreq_eq rfl).trans (congrArg _ hfreq)⟩

/-- `UART1` after the reset, with its pins set up. -/
theorem idle_off {around : UartEnv} (hpin : Stm32Uart.checkTxPin around Stm32Uart.idle = .ok ())
    (hmap : around.afio.USART1_REMAP = 0) (now : BitVec 64) :
    Off around Stm32Uart.idle.port ⟨Stm32Uart.idle, now, []⟩ := by
  have hboard : around.afio.getPeriphMap .UART1 = .ok 0 := congrArg Except.ok hmap
  have hattached : Stm32Uart.idle.Attached around :=
    ⟨hpin, hboard, rfl, by decide, by decide, by decide, rfl, rfl, rfl, rfl⟩
  exact ⟨hattached, rfl, rfl, rfl, rfl, rfl⟩

end Bluepill

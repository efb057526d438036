/-
  Numbers on the serial line (`send_number` of `common/stm32_f103.c`).

  The digits are put into a buffer of 100 characters, the last one first, and sent from its end.
  In every radix from 2 on, a number of 32 bits has at most 32 digits, so the buffer is large
  enough; what arrives are the digits of the number (`sendNumber_digits`).
-/
import Mathlib.Data.Nat.Digits.Defs
import Bluepill.Firmware.Init

namespace Bluepill

open Machine Program Firmware

namespace Firmware

/-- `hex_to_char`. -/
def hexToChar (hexNumber : BitVec 32) : BitVec 8 :=
  if hexNumber < 0xA then (hexNumber + 0x30).setWidth 8 else (hexNumber - 0xA + 0x41).setWidth 8

/-- The first loop of `send_number`, when `str` has room for so many characters: what it writes, or `none` if it
    writes beyond the end.  A division by `0` gives `0` on this core, as it does for `BitVec`. -/
def numberDigits (radix : BitVec 32) : ℕ → BitVec 32 → Option (List (BitVec 8))
  | 0, _ => none
  | room + 1, sample => do
    let char := hexToChar (sample % radix)
    if sample / radix ≠ 0 then
      let str ← numberDigits radix room (sample / radix)
      return char :: str
    else return [char]

/-- The second loop. -/
def sendDigits (str : List (BitVec 8)) : ℕ → Fw Unit
  | 0 => return
  | digit + 1 => do
    sendByte (str.getD digit 0)
    sendDigits str digit

/-- `send_number`. -/
def sendNumber (sample radix : BitVec 32) : Option (Fw Unit) := do
  let str ← numberDigits radix 100 sample
  return sendDigits str str.length

/-- The start of the demos that print numbers, and what they print. -/
def printMain (apbclock : BitVec 32) (text : Fw Unit) : Fw Unit := do
  initRs232 apbclock
  text

end Firmware

/-! ## What is to be printed -/

/-- The character of a digit. -/
def digitChar (d : ℕ) : BitVec 8 := if d < 10 then BitVec.ofNat 8 (d + 0x30) else BitVec.ofNat 8 (d + 0x37)

/-- A number, the first digit first. -/
def digitText (radix n : ℕ) : List (BitVec 8) :=
  if n = 0 then [digitChar 0] else ((Nat.digits radix n).map digitChar).reverse

theorem hexToChar_eq (n : BitVec 32) : hexToChar n = digitChar n.toNat := by
  have hlt : n < 0xA ↔ n.toNat < 10 := Iff.rfl
  rw [hexToChar, digitChar]
  split
  case isTrue h =>
    rw [if_pos (hlt.1 h)]
    apply BitVec.eq_of_toNat_eq
    simp
  case isFalse h =>
    rw [if_neg (fun h' => h (hlt.2 h'))]
    apply BitVec.eq_of_toNat_eq
    simp
    omega

/-! ## The digits -/

variable {radix : BitVec 32}

/-- A round of the loop, for the text. -/
theorem digitText_step {r : ℕ} (hr : 1 < r) (n : ℕ) : digitText r n =
    if n / r = 0 then [digitChar (n % r)] else digitText r (n / r) ++ [digitChar (n % r)] := by
  by_cases hn : n = 0
  · rw [hn, Nat.zero_div, Nat.zero_mod]
    rfl
  · rw [digitText, if_neg hn, Nat.digits_def' hr (Nat.pos_of_ne_zero hn), List.map_cons, List.reverse_cons]
    split
    case isTrue hdiv =>
      rw [hdiv, Nat.digits_zero]
      rfl
    case isFalse hdiv => rw [digitText, if_neg hdiv]

/-- The last round writes the first digit. -/
theorem numberDigits_last {sample : BitVec 32} (hradix : 1 < radix.toNat) (hdiv : sample / radix = 0) (room : ℕ) :
    ∃ str, numberDigits radix (room + 1) sample = some str ∧ str.reverse = digitText radix.toNat sample.toNat := by
  refine ⟨[hexToChar (sample % radix)], ?_, ?_⟩
  · rw [numberDigits, if_neg (not_not.2 hdiv)]
    rfl
  · have hzero : sample.toNat / radix.toNat = 0 := by
      rw [← BitVec.toNat_udiv, hdiv]
      rfl
    rw [digitText_step hradix, if_pos hzero, hexToChar_eq, BitVec.toNat_umod]
    rfl

/-- **The buffer holds the digits**, if it has room for as many as the number may have. -/
theorem numberDigits_eq (hradix : 1 < radix.toNat) {room : ℕ} {sample : BitVec 32}
    (hroom : sample.toNat < radix.toNat ^ (room + 1)) :
    ∃ str, numberDigits radix (room + 1) sample = some str ∧ str.reverse = digitText radix.toNat sample.toNat := by
  induction room generalizing sample with
  | zero =>
    have hdiv : sample / radix = 0 := by
      apply BitVec.eq_of_toNat_eq
      rw [BitVec.toNat_udiv]
      exact Nat.div_eq_of_lt (by rwa [Nat.zero_add, Nat.pow_one] at hroom)
    exact numberDigits_last hradix hdiv _
  | succ room ih =>
    by_cases hdiv : sample / radix = 0
    · exact numberDigits_last hradix hdiv _
    · have hless : (sample / radix).toNat < radix.toNat ^ (room + 1) := by
        rw [BitVec.toNat_udiv]
        exact Nat.div_lt_of_lt_mul (by rwa [← Nat.pow_succ'])
      obtain ⟨str, hstr, htext⟩ := ih hless
      refine ⟨hexToChar (sample % radix) :: str, ?_, ?_⟩
      · rw [numberDigits, if_pos hdiv, hstr]
        rfl
      · rw [List.reverse_cons, htext, digitText_step hradix sample.toNat, if_neg, hexToChar_eq, BitVec.toNat_udiv,
          BitVec.toNat_umod]
        intro h
        exact hdiv (BitVec.eq_of_toNat_eq ((BitVec.toNat_udiv).trans h))

theorem sendDigits_eq {str : List (BitVec 8)} {n : ℕ} (hn : n ≤ str.length) :
    sendDigits str n = sendBytes (str.take n).reverse := by
  induction n with
  | zero => rfl
  | succ n ih =>
    have hget : str[n]? = some (str.getD n 0) := by
      rw [List.getD_eq_getElem?_getD, List.getElem?_eq_getElem hn]
      rfl
    rw [sendDigits, ih (Nat.le_of_succ_le hn), List.take_add_one, hget]
    simp [sendBytes]

/-- `send_number` sends the digits of the number. -/
theorem sendNumber_eq (hradix : 1 < radix.toNat) (sample : BitVec 32) :
    sendNumber sample radix = some (sendBytes (digitText radix.toNat sample.toNat)) := by
  -- 32 digits are enough in radix 2
  have hroom : sample.toNat < radix.toNat ^ 100 :=
    calc sample.toNat < 2 ^ 32 := sample.isLt
      _ ≤ 2 ^ 100 := by decide
      _ ≤ radix.toNat ^ 100 := Nat.pow_le_pow_left hradix 100
  obtain ⟨str, hstr, htext⟩ := numberDigits_eq hradix hroom
  rw [sendNumber, hstr]
  show some (sendDigits str str.length) = _
  rw [sendDigits_eq (Nat.le_refl _), List.take_length, htext]

/-! ## On the line -/

/-- **What arrives are the digits of the number**, in every radix from 2 on and however the host and the timers come
    in between: nothing else is sent at any time, and left alone the function ends with all of them sent. -/
theorem sendNumber_digits {around : UartEnv} {apbclock : BitVec 32} {uart : Stm32Uart} {radix : BitVec 32}
    (hradix : 1 < radix.toNat) (hstart : Stm32Uart.start .shipped around .UART1 true 0 = .ok uart)
    (hpin : Stm32Uart.checkTxPin around uart = .ok ()) (hmap : around.afio.USART1_REMAP = 0)
    (hclk : around.rcc.getPeriphFreq .UART1 = .ok apbclock) (happ : apbclock.toNat ≤ 72000000) (now : BitVec 64)
    (sample : BitVec 32) : ∃ text, sendNumber sample radix = some text ∧ ∀ ops : List (Option HostOp),
      ∃ c, run (Program.step (Serial.exec around) (Serial.host around) (pure ()))
          (⟨uart, now, []⟩, printMain apbclock text) ops = .ok c ∧
        c.1.uart.sent <+: digitText radix.toNat sample.toNat ∧
        ∃ k d, alone (Serial.exec around) (Serial.host around) (pure ()) k c = .ok (d, pure ()) ∧
          d.uart.sent = digitText radix.toNat sample.toNat := by
  have huart : uart = Stm32Uart.idle := by
    rw [Stm32Uart.start_idle] at hstart
    cases hstart
    rfl
  subst huart
  -- from here on only that it sends a text matters, not which one
  refine ⟨_, sendNumber_eq hradix sample, fun ops => ?_⟩
  generalize digitText radix.toNat sample.toNat = text
  have hI : ∀ p s, Off around p s → s.uart.sent <+: text := by
    intro p s h
    rw [h.sent]
    exact List.nil_prefix
  have hI' : ∀ y s, y <+: text → Out around false [] y s → s.uart.sent <+: text := by
    intro y s hy h
    rwa [h.sent]
  have hmain : Triple (Serial.exec around) (Serial.host around) (fun s => s.uart.sent <+: text) (fun _ => False)
      (fun _ => Out around false [] text) (Off around Stm32Uart.idle.port) (printMain apbclock (sendBytes text)) := by
    refine (initRs232_triple happ rfl hclk hI fun s => hI' [] s List.nil_prefix).bind fun _ => ?_
    exact sendBytes_triple (x := []) fun y s _ hy h => hI' y s hy h
  obtain ⟨c, hc, hsent, k, d, hd, hout⟩ := hmain.terminates Out.stable
    (fun s h => hI' text s (List.prefix_refl text) h) (idle_off hpin hmap now) ops
  exact ⟨c, hc, hsent, k, d, hd, hout.sent⟩

/-- `1000`, which is `3E8` in hexadecimal. -/
theorem sendNumber_digits_hex : ∃ rcc text k d, sendNumber 1000 16 = some text ∧
    alone (Serial.exec (Stm32Uart.readyEnv rcc)) (Serial.host (Stm32Uart.readyEnv rcc)) (pure ()) k
      (⟨Stm32Uart.idle, 0, []⟩, printMain 8000000 text) = .ok (d, pure ()) ∧ d.uart.sent = [0x33, 0x45, 0x38] := by
  obtain ⟨rcc, hclk⟩ := exists_clocked
  have hradix : 1 < (16 : BitVec 32).toNat := by decide
  obtain ⟨text, htext, hrun⟩ := sendNumber_digits hradix
    (Stm32Uart.start_idle (Stm32Uart.readyEnv rcc)) (Stm32Uart.checkTxPin_ready rcc rfl) rfl hclk (by decide) 0 1000
  obtain ⟨c, hc, -, k, d, hd, hsent⟩ := hrun []
  cases hc
  refine ⟨rcc, text, k, d, htext, hd, hsent.trans ?_⟩
  simp [digitText, digitChar]

end Bluepill

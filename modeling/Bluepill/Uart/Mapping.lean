/-
  The pins of the USARTs.

  A board connects each USART to the pins of one mapping, and the USART refuses to be
  enabled while the AFIO has another one.  The AFIO decodes the fields of the first two
  USARTs from its stored register, which is never written, so that they are always `0`
  (`Decoded`).  `mapping_iff` says when the check, and the register read back, are right
  all the same.
-/
import Bluepill.Uart

namespace Bluepill

/-- The USARTs that can be remapped. -/
inductive Usart where
  | USART1 | USART2 | USART3
  deriving DecidableEq

namespace Usart

def periph : Usart → Periph
  | USART1 => .UART1
  | USART2 => .UART2
  | USART3 => .UART3

/-- The remap field of a USART in a value of `AFIO_MAPR`. -/
def remap (mapr : BitVec 32) : Usart → BitVec 32
  | USART1 => extract32 mapr 2 1
  | USART2 => extract32 mapr 3 1
  | USART3 => extract32 mapr 4 2

theorem remap_cases {u : Usart} (h : u ≠ USART3) (mapr : BitVec 32) :
    u.remap mapr = 0 ∨ u.remap mapr = 1 := by
  have hbit : ∀ {i : ℕ}, i < 32 → extract32 mapr i 1 = 0 ∨ extract32 mapr i 1 = 1 := by
    intro i hi
    rw [show extract32 mapr i 1 = _ from Word.extract_one mapr hi]
    split
    · exact .inr rfl
    · exact .inl rfl
  cases u with
  | USART1 => exact hbit (by decide)
  | USART2 => exact hbit (by decide)
  | USART3 => exact absurd rfl h

/-- A check that takes the field as `0` is right for the field `0` itself, and for mappings
    that are not a value of the field. -/
theorem zero_iff_remap {u : Usart} (h : u ≠ USART3) (mapr m : BitVec 32) :
    (0 = m ↔ u.remap mapr = m) ↔ u.remap mapr = 0 ∨ m ≠ 0 ∧ m ≠ 1 := by
  rcases remap_cases h mapr with h0 | h1
  · rw [h0]
    exact ⟨fun _ => .inl rfl, fun _ => Iff.rfl⟩
  · rw [h1]
    constructor
    · intro hm
      refine .inr ⟨?_, ?_⟩
      · rintro rfl
        exact absurd (hm.1 rfl) (by decide)
      · rintro rfl
        exact absurd (hm.2 rfl) (by decide)
    · rintro (h10 | ⟨hm0, hm1⟩)
      · exact absurd h10 (by decide)
      · exact ⟨fun h => absurd h.symm hm0, fun h => absurd h.symm hm1⟩

end Usart

/-- The AFIO and the USARTs. -/
structure Mapping where
  afio : Stm32Afio
  uart : Usart → Stm32Uart

namespace Mapping

/-- Writes to `AFIO_MAPR` and to the `CR1` of a USART, and resets of the AFIO. -/
inductive Op where
  | maprWrite (value : BitVec 64)
  | afioReset
  | cr1Write (env : UartEnv) (u : Usart) (newValue : BitVec 32)

def step (x : Mapping) : Op → Except Fault Mapping
  | .maprWrite value => do
    let afio ← x.afio.write 0x04 value
    .ok { x with afio }
  | .afioReset => do
    let afio ← x.afio.reset
    .ok { x with afio }
  | .cr1Write env u newValue => do
    let s ← (x.uart u).cr1Write { env with afio := x.afio } newValue
    .ok { x with uart := Function.update x.uart u s }

/-- The value of `AFIO_MAPR` after an operation. -/
def next (mapr : BitVec 32) : Op → BitVec 32
  | .maprWrite value => value.setWidth 32
  | .afioReset => 0
  | .cr1Write _ _ _ => mapr

/-- The value written last, `0` after a reset. -/
def written (l : List Op) : BitVec 32 := l.foldl next 0

end Mapping

namespace Stm32Afio

variable {s t : Stm32Afio}

/-- The stored register, and the fields of the USARTs. -/
def remaps (s : Stm32Afio) : BitVec 32 × BitVec 32 × BitVec 32 × BitVec 32 :=
  (s.MAPR, s.USART1_REMAP, s.USART2_REMAP, s.USART3_REMAP)

/-- Only the field of the third USART comes from the value. -/
theorem maprWrite_remaps (h : s.MAPR = 0) (v : BitVec 32) :
    (s.maprWrite v).remaps = (0, 0, 0, Usart.remap v .USART3) := by
  have hfield : (v &&& 0x00000030#32) >>> 4 = extract32 v 4 2 := by
    have hmask : ∀ i < 32, (0x00000030#32).getLsbD (4 + i) = decide (i < 2) := by decide
    apply BitVec.eq_of_getLsbD_eq
    intro i hi
    rw [BitVec.getLsbD_ushiftRight, BitVec.getLsbD_and, hmask i hi, Bool.and_comm]
    exact (Word.getLsbD_extract v (by decide) i).symm
  show (s.MAPR, extract32 s.MAPR 2 1, extract32 s.MAPR 3 1, (v &&& 0x00000030#32) >>> 4) = _
  rw [h, hfield]
  rfl

theorem exticrLine_remaps {index i : ℕ} {v : BitVec 32} {b : Bool}
    (h : exticrLine index v b s i = .ok t) : t.remaps = s.remaps := by
  have hconnect : ∀ {s t : Stm32Afio} {g n : ℕ} {irq : Option ℕ}, s.connectIrq g n irq = .ok t →
      t.remaps = s.remaps := by
    intro s t g n irq h
    unfold connectIrq at h
    split at h
    · cases h
      rfl
    · cases h
  unfold exticrLine at h
  dsimp only at h
  split at h
  · exact hconnect h
  · obtain ⟨u, hu, h⟩ := Machine.bind_eq_ok.1 h
    exact (hconnect h).trans (hconnect hu)

/-- The other registers do not touch them. -/
theorem exticrWrite_remaps {index : ℕ} {v : BitVec 32} {b : Bool} (h : s.exticrWrite index v b = .ok t) :
    t.remaps = s.remaps := by
  obtain ⟨-, h⟩ := assert_bind.1 h
  obtain ⟨u, hu, h⟩ := Machine.bind_eq_ok.1 h
  cases h
  have hloop := (Machine.foldlM_sim (V := remaps) (g := fun x _ => x) (J := fun _ _ => True)
    (fun _ _ _ _ _ ht => ⟨trivial, exticrLine_remaps ht⟩) trivial hu).2
  exact hloop

theorem reset_remaps (h : s.MAPR = 0) (ht : s.reset = .ok t) :
    t.remaps = (0, 0, 0, Usart.remap 0 .USART3) := by
  unfold reset at ht
  obtain ⟨s₁, h₁, ht⟩ := Machine.bind_eq_ok.1 ht
  obtain ⟨s₂, h₂, ht⟩ := Machine.bind_eq_ok.1 ht
  obtain ⟨s₃, h₃, h₄⟩ := Machine.bind_eq_ok.1 ht
  rw [exticrWrite_remaps h₄, exticrWrite_remaps h₃, exticrWrite_remaps h₂, exticrWrite_remaps h₁,
    maprWrite_remaps h]

end Stm32Afio

namespace Mapping

/-- What the AFIO has made of the value `mapr`, on a board with the mappings `map`. -/
structure Decoded (map : Usart → BitVec 32) (mapr : BitVec 32) (x : Mapping) : Prop where
  remaps : x.afio.remaps = (0, 0, 0, Usart.remap mapr .USART3)
  periph : ∀ u, (x.uart u).periph = u.periph
  board : ∀ u, (x.uart u).afioBoardMap = map u

variable {map : Usart → BitVec 32} {mapr : BitVec 32} {x y : Mapping}

theorem Decoded.fields (h : x.Decoded map mapr) :
    x.afio.MAPR = 0 ∧ x.afio.USART1_REMAP = 0 ∧ x.afio.USART2_REMAP = 0 ∧
      x.afio.USART3_REMAP = Usart.remap mapr .USART3 := by
  simpa [Stm32Afio.remaps] using h.remaps

/-- The mapping that the AFIO gives a USART. -/
theorem Decoded.getPeriphMap (h : x.Decoded map mapr) (u : Usart) :
    x.afio.getPeriphMap u.periph = .ok (if u = .USART3 then u.remap mapr else 0) := by
  obtain ⟨-, h₁, h₂, h₃⟩ := h.fields
  cases u with
  | USART1 => exact congrArg Except.ok h₁
  | USART2 => exact congrArg Except.ok h₂
  | USART3 => exact congrArg Except.ok h₃

theorem cr1Write_board {env : UartEnv} {s t : Stm32Uart} {v : BitVec 32} (h : s.cr1Write env v = .ok t) :
    t.periph = s.periph ∧ t.afioBoardMap = s.afioBoardMap := by
  obtain ⟨_, -, h⟩ := Machine.bind_eq_ok.1 h
  cases h
  obtain ⟨irq, level, hirq⟩ := Stm32Uart.updateIrq_eq { s with
    CR1_UE := extract32 v 13 1 != 0
    CR1_TXEIE := extract32 v 7 1 != 0
    CR1_TCIE := extract32 v 6 1 != 0
    CR1_RXNEIE := extract32 v 5 1 != 0
    CR1_TE := extract32 v 3 1 != 0
    CR1_RE := extract32 v 2 1 != 0
    CR1 := v &&& 0x00003fff }
  rw [hirq]
  exact ⟨rfl, rfl⟩

theorem Decoded.reset (hx : Stm32Afio.init.reset = .ok x.afio)
    (hu : ∀ u, (x.uart u).periph = u.periph ∧ (x.uart u).afioBoardMap = map u) : x.Decoded map 0 where
  remaps := Stm32Afio.reset_remaps rfl hx
  periph u := (hu u).1
  board u := (hu u).2

theorem Decoded.step (h : x.Decoded map mapr) {o : Op} (hy : x.step o = .ok y) :
    y.Decoded map (next mapr o) := by
  have hMAPR := h.fields.1
  cases o with
  | maprWrite value =>
    obtain ⟨afio, hafio, hy⟩ := Machine.bind_eq_ok.1 hy
    cases hafio
    cases hy
    exact ⟨Stm32Afio.maprWrite_remaps hMAPR _, h.periph, h.board⟩
  | afioReset =>
    obtain ⟨afio, hafio, hy⟩ := Machine.bind_eq_ok.1 hy
    cases hy
    exact ⟨Stm32Afio.reset_remaps hMAPR hafio, h.periph, h.board⟩
  | cr1Write env u v =>
    obtain ⟨s, hs, hy⟩ := Machine.bind_eq_ok.1 hy
    cases hy
    obtain ⟨hperiph, hboard⟩ := cr1Write_board hs
    have hkeep : ∀ {α : Type} (π : Stm32Uart → α), π s = π (x.uart u) →
        ∀ u', π (Function.update x.uart u s u') = π (x.uart u') := by
      intro α π hπ u'
      by_cases hu : u' = u
      · rw [hu, Function.update_self, hπ]
      · rw [Function.update_of_ne hu]
    refine ⟨h.remaps, fun u' => ?_, fun u' => ?_⟩
    · exact (hkeep Stm32Uart.periph hperiph u').trans (h.periph u')
    · exact (hkeep Stm32Uart.afioBoardMap hboard u').trans (h.board u')

theorem Decoded.run {l : List Op} : ∀ {mapr : BitVec 32} {x : Mapping}, x.Decoded map mapr →
    Machine.run Mapping.step x l = .ok y → y.Decoded map (l.foldl next mapr) := by
  induction l with
  | nil =>
    intro mapr x h hy
    cases hy
    exact h
  | cons o l ih =>
    intro mapr x h hy
    obtain ⟨z, hz, hy⟩ := Machine.run_cons_ok.1 hy
    exact ih (h.step hz) hy

/-- A USART is enabled if the AFIO has the mapping of the board. -/
theorem cr1Write_ok_iff {env : UartEnv} {afio : Stm32Afio} {s : Stm32Uart} {v m : BitVec 32}
    (hv : v.getLsbD 13 = true) (hm : afio.getPeriphMap s.periph = .ok m) :
    (∃ t, s.cr1Write { env with afio } v = .ok t) ↔ m = s.afioBoardMap := by
  have hUE : (extract32 v 13 1 != 0) = true := by
    rw [show extract32 v 13 1 = _ from Word.extract_one v (by decide), if_pos hv]
    decide
  have hcheck : Stm32Uart.checkMap { env with afio } { s with CR1_UE := extract32 v 13 1 != 0 } =
      if s.afioBoardMap ≠ m then do
        let name ← periphName s.periph
        .error (.hwError ("Bad AFIO mapping for " ++ name))
      else .ok () := by
    unfold Stm32Uart.checkMap
    rw [hm, if_pos hUE]
    rfl
  constructor
  · rintro ⟨t, h⟩
    obtain ⟨_, h, -⟩ := Machine.bind_eq_ok.1 h
    by_contra hne
    rw [hcheck, if_pos (Ne.symm hne)] at h
    obtain ⟨_, -, h⟩ := Machine.bind_eq_ok.1 h
    cases h
  · rintro rfl
    exact ⟨_, Machine.bind_eq_ok.2 ⟨(), hcheck.trans (if_neg (not_not.2 rfl)), rfl⟩⟩

/-- The value read back has the field of the third USART alone. -/
theorem Decoded.read (h : x.Decoded map mapr) :
    x.afio.read 0x04 = (mapr &&& 0x30#32).setWidth 64 := by
  obtain ⟨-, h₁, h₂, h₃⟩ := h.fields
  have hmask : ∀ i < 32, (0x30#32).getLsbD i = (decide (4 ≤ i) && decide (i - 4 < 2)) := by decide
  have hfield : extract32 mapr 4 2 <<< 4 = mapr &&& 0x30#32 := by
    apply BitVec.eq_of_getLsbD_eq
    intro i hi
    rw [BitVec.getLsbD_and, hmask i hi, BitVec.getLsbD_shiftLeft,
      show (extract32 mapr 4 2).getLsbD (i - 4) = _ from Word.getLsbD_extract mapr (by decide) _]
    by_cases h4 : 4 ≤ i
    · simp [h4, hi, Nat.add_sub_cancel' h4, Bool.and_comm]
    · simp [h4, Nat.lt_of_not_le h4]
  show (x.afio.USART1_REMAP <<< 2 ||| x.afio.USART2_REMAP <<< 3 |||
    x.afio.USART3_REMAP <<< 4).setWidth 64 = _
  rw [h₁, h₂, h₃, show Usart.remap mapr .USART3 <<< 4 = _ from hfield]
  simp

/-- Enabling a USART compares the mapping of the board with the one of the AFIO. -/
theorem Decoded.cr1Write_iff (h : x.Decoded map mapr) {env : UartEnv} {u : Usart} {v : BitVec 32}
    (hv : v.getLsbD 13 = true) :
    (∃ y, x.step (.cr1Write env u v) = .ok y) ↔ (if u = .USART3 then u.remap mapr else 0) = map u := by
  have hmap := h.getPeriphMap u
  rw [← h.periph u] at hmap
  rw [← h.board u, ← cr1Write_ok_iff hv hmap]
  constructor
  · rintro ⟨y, hy⟩
    obtain ⟨s, hs, -⟩ := Machine.bind_eq_ok.1 hy
    exact ⟨s, hs⟩
  · rintro ⟨s, hs⟩
    exact ⟨_, Machine.bind_eq_ok.2 ⟨s, hs, rfl⟩⟩

theorem setWidth_mask (v : BitVec 64) :
    (v.setWidth 32 &&& 0x30#32).setWidth 64 = v &&& 0x30#64 := by
  have hmask : ∀ i < 64, (0x30#64).getLsbD i = (decide (i < 32) && (0x30#32).getLsbD i) := by decide
  apply BitVec.eq_of_getLsbD_eq
  intro i hi
  simp only [BitVec.getLsbD_setWidth, BitVec.getLsbD_and, hmask i hi, hi, decide_true, Bool.true_and]
  rw [Bool.and_comm (decide _), Bool.and_assoc]

theorem mask_iff (v : BitVec 64) : v &&& 0x30 = v &&& 0x3c ↔ v &&& 0x0c = 0 := by
  constructor
  · intro h
    calc v &&& 0x0c = (v &&& 0x3c) &&& 0x0c := (BitVec.and_assoc v 0x3c 0x0c).symm
      _ = (v &&& 0x30) &&& 0x0c := by rw [h]
      _ = v &&& 0 := BitVec.and_assoc v _ _
      _ = 0 := BitVec.and_zero
  · intro h
    calc v &&& 0x30 = v &&& 0x30 ||| v &&& 0x0c := by rw [h]; exact BitVec.or_zero.symm
      _ = v &&& 0x3c := (BitVec.and_or_distrib_left).symm

/-- **The check of the mapping**, after any writes and resets that the devices accept: the
    guard is right for the third USART, for the others while their field is `0`, and for
    mappings that they do not have; the register reads back the value written if the fields of
    the first two USARTs are `0`. -/
theorem mapping_iff {map : Usart → BitVec 32} {x t : Mapping} {l : List Op}
    (hx : Stm32Afio.init.reset = .ok x.afio)
    (hu : ∀ u, (x.uart u).periph = u.periph ∧ (x.uart u).afioBoardMap = map u)
    (h : Machine.run Mapping.step x l = .ok t) :
    (∀ env u v, v.getLsbD 13 = true →
      (((∃ t', t.step (.cr1Write env u v) = .ok t') ↔ u.remap (written l) = map u) ↔
        u = .USART3 ∨ u.remap (written l) = 0 ∨ map u ≠ 0 ∧ map u ≠ 1)) ∧
    ∀ v t', t.step (.maprWrite v) = .ok t' → (t'.afio.read 0x04 = v &&& 0x3c ↔ v &&& 0x0c = 0) := by
  have ht : t.Decoded map (written l) := (Decoded.reset hx hu).run h
  refine ⟨fun env u v hv => ?_, fun v t' h' => ?_⟩
  · rw [ht.cr1Write_iff hv]
    by_cases h3 : u = .USART3
    · rw [if_pos h3]
      exact ⟨fun _ => .inl h3, fun _ => Iff.rfl⟩
    · rw [if_neg h3, u.zero_iff_remap h3]
      exact ⟨.inr, fun h => h.resolve_left h3⟩
  · rw [show t'.afio.read 0x04 = v &&& 0x30#64 from (ht.step h').read.trans (setWidth_mask v)]
    exact mask_iff v

/-- The devices of a board that connects every USART with the mapping `m`. -/
def connected (afio : Stm32Afio) (m : BitVec 32) : Mapping where
  afio := afio
  uart u := (Stm32Uart.init u.periph).connect true m

/-- The third USART is remapped as on the board, and can be enabled. -/
theorem mapping_iff_USART3 : ∃ afio t, Stm32Afio.init.reset = .ok afio ∧
    Machine.run step (connected afio 1) [.maprWrite 0x10] = .ok t ∧
    ∀ env, ∃ t', t.step (.cr1Write env .USART3 0x2000) = .ok t' := by
  obtain ⟨afio, hafio⟩ := Stm32Afio.reset_ok Stm32Afio.wf_init
  have hrun : Machine.run step (connected afio 1) [.maprWrite 0x10] = .ok _ := rfl
  have hiff := (@mapping_iff (fun _ => 1) _ _ _ hafio (fun _ => ⟨rfl, rfl⟩) hrun).1
  exact ⟨afio, _, hafio, hrun, fun env => ((hiff env .USART3 0x2000 (by decide)).2 (.inl rfl)).2 (by decide)⟩

/-- The first USART is remapped, but not on the board.  It can be enabled, and the register
    reads `0`. -/
theorem not_mapping_USART1 : ∃ afio t, Stm32Afio.init.reset = .ok afio ∧
    Machine.run step (connected afio 0) [.maprWrite 0x04] = .ok t ∧
    Usart.USART1.remap (written [.maprWrite 0x04]) = 1 ∧
    (∀ env, ∃ t', t.step (.cr1Write env .USART1 0x2000) = .ok t') ∧ t.afio.read 0x04 = 0 := by
  obtain ⟨afio, hafio⟩ := Stm32Afio.reset_ok Stm32Afio.wf_init
  have hrun : Machine.run step (connected afio 0) [.maprWrite 0x04] = .ok _ := rfl
  have ht : Decoded (fun _ => 0) _ _ := (Decoded.reset hafio fun _ => ⟨rfl, rfl⟩).run hrun
  exact ⟨afio, _, hafio, hrun, by decide, fun env => (ht.cr1Write_iff (by decide)).2 rfl, ht.read⟩

end Mapping

end Bluepill

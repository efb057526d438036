/-
  The two builds of the transmitter agree.

  With `STM32_UART_NO_BAUD_DELAY` a transmission is complete when the write to
  `DR` returns.  Without it, a transmission lasts until a timer expires, and one
  more byte waits in `TDR` meanwhile.  On the same operations the build without
  delay is ahead by what waits there (`Out.Lags`): an operation of the delayed
  build is an operation of the other one (`Lags.step`), and two expiries make up
  for the delay (`Lags.catchesUp`).
-/
import Bluepill.Rcc.Spec
import Bluepill.Uart

namespace Bluepill

namespace Stm32Uart

/-- What transmission depends on, and the bytes handed over. -/
structure Out where
  periph : Periph
  chr : Bool
  UE : Bool
  TE : Bool
  TXE : Bool
  TC : Bool
  TDR : BitVec 32
  txTimer : Option (BitVec 64)
  sent : List (BitVec 8)

def out (s : Stm32Uart) : Out :=
  ⟨s.periph, s.chr, s.CR1_UE, s.CR1_TE, s.SR_TXE, s.SR_TC, s.TDR, s.txTimer, s.sent⟩

/-- The byte that waits in the data register. -/
def Out.waiting (r : Out) : List (BitVec 8) := if r.TXE then [] else [r.TDR.setWidth 8]

variable {build late early : UartBuild} {env : UartEnv} {s t : Stm32Uart} {v : BitVec 32}

@[simp] theorem updateIrq_out (s : Stm32Uart) : s.updateIrq.out = s.out := by
  obtain ⟨_, _, h⟩ := s.updateIrq_eq; rw [h]; rfl

/-! ## Transmission in each build -/

theorem txComplete_out_empty (h : s.SR_TXE = true) :
    (txComplete build env s).out = { s.out with TC := true } := by
  rw [txComplete, if_pos h, updateIrq_out]; rfl

/-- With a delay the byte is handed over at once, and the timer runs. -/
theorem startTx_out_late (hl : late.noBaudDelay = false) (hc : s.chr = true) :
    (startTx late env s v).out = { s.out with
      TC := false, txTimer := some (env.now + s.nsPerChar), sent := s.sent ++ [v.setWidth 8] } := by
  rw [startTx, hl, if_neg (by decide), if_pos hc]; rfl

theorem startTx_out_early (he : early.noBaudDelay = true) (hx : s.SR_TXE = true) (hc : s.chr = true) :
    (startTx early env s v).out =
      { s.out with TC := true, sent := s.sent ++ [v.setWidth 8] } := by
  rw [startTx, he, if_pos rfl, if_pos hc, txComplete_out_empty (by exact hx)]; rfl

/-- With a delay, the byte that waited is on its way when a transmission ends. -/
theorem txComplete_out_late (hl : late.noBaudDelay = false) (hc : s.chr = true)
    (hx : s.SR_TXE = false) : ∃ timer, (txComplete late env s).out = { s.out with
      TXE := true, TC := false, txTimer := some timer, sent := s.sent ++ [s.TDR.setWidth 8] } := by
  have hchr : (updateIrq { s with SR_TXE := true }).chr = true := by
    obtain ⟨_, _, hu⟩ := updateIrq_eq { s with SR_TXE := true }
    rw [hu]; exact hc
  have hsent : (updateIrq { s with SR_TXE := true }).sent = s.sent := by
    obtain ⟨_, _, hu⟩ := updateIrq_eq { s with SR_TXE := true }
    rw [hu]
  rw [txComplete, if_neg (by simp [hx]), startTx_out_late hl hchr, updateIrq_out, hsent]
  exact ⟨_, rfl⟩

/-! ## Writes to `DR` -/

theorem drWrite_checked (h : drWrite build env s v = .ok t) :
    s.CR1_UE = true ∧ s.CR1_TE = true ∧ checkTxPin env s = .ok () := by
  unfold drWrite at h
  dsimp only at h
  split at h
  · cases h
  rename_i hUE
  split at h
  · cases h
  rename_i hTE
  obtain ⟨⟨⟩, hpin, -⟩ := Machine.bind_eq_ok.1 h
  exact ⟨by simpa using hUE, by simpa using hTE, hpin⟩

theorem drWrite_of_tc (hUE : s.CR1_UE = true) (hTE : s.CR1_TE = true)
    (hpin : checkTxPin env s = .ok ()) (hTC : s.SR_TC = true) :
    drWrite build env s v = .ok (updateIrq (startTx build env s (v &&& 0x000001ff))) := by
  simp [drWrite, hUE, hTE, hpin, hTC]

theorem drWrite_of_txe (hUE : s.CR1_UE = true) (hTE : s.CR1_TE = true)
    (hpin : checkTxPin env s = .ok ()) (hTC : s.SR_TC = false) (hTXE : s.SR_TXE = true) :
    drWrite build env s v = .ok (updateIrq { s with TDR := v &&& 0x000001ff, SR_TXE := false }) := by
  simp [drWrite, hUE, hTE, hpin, hTC, hTXE]

theorem checkTxPin_congr (h : t.periph = s.periph) : checkTxPin env t = checkTxPin env s := by
  unfold checkTxPin; rw [h]

theorem step_write_dr {offset size : ℕ} {value : BitVec 64} (h : offset / 4 * 4 = 4) :
    step build s (env, .write offset value size) =
      drWrite build env s (laneValue 0 offset value size) := by
  show s.write build env offset value size = _
  rw [Stm32Uart.write, h]; rfl

/-! ## The delayed build lags behind -/

/-- `n` has handed over what `d` has and the byte that waits in `d`; a transmission
    of `d` lasts while its timer runs, and nothing of `n` is under way. -/
structure Out.Lags (d n : Out) : Prop where
  periph : n.periph = d.periph
  UE : n.UE = d.UE
  TE : n.TE = d.TE
  connected : d.chr = true ∧ n.chr = true
  sent : n.sent = d.sent ++ d.waiting
  timer : d.txTimer.isSome = !d.TC
  busy : d.TXE = false → d.TC = false
  complete : n.TXE = true ∧ n.TC = true
  quiet : n.txTimer = none

variable {d n d' : Stm32Uart}

/-- A byte written to `DR` is handed over by `n`, and by `d` handed over or kept. -/
theorem Out.Lags.drWrite (h : d.out.Lags n.out) (hl : late.noBaudDelay = false)
    (he : early.noBaudDelay = true) (hd : drWrite late env d v = .ok d') :
    ∃ n', drWrite early env n v = .ok n' ∧ d'.out.Lags n'.out := by
  obtain ⟨hUE, hTE, hpin⟩ := drWrite_checked hd
  have hcd : d.chr = true := h.connected.1
  have hcn : n.chr = true := h.connected.2
  refine ⟨_, drWrite_of_tc (h.UE.trans hUE) (h.TE.trans hTE)
    ((checkTxPin_congr h.periph).trans hpin) h.complete.2, ?_⟩
  have hn : (startTx early env n (v &&& 0x000001ff)).out = _ :=
    startTx_out_early he h.complete.1 hcn
  rw [updateIrq_out, hn]
  rcases drWrite_cases late hd with ⟨hTC, rfl⟩ | ⟨hTC, hTXE, rfl⟩
  · -- nothing waits, since no transmission is under way
    have hTXE : d.SR_TXE = true := by
      by_contra hx
      exact absurd (hTC.symm.trans (h.busy (by simpa [out] using hx))) (by decide)
    rw [updateIrq_out, startTx_out_late hl hcd]
    refine ⟨h.periph, h.UE, h.TE, h.connected, ?_, rfl, fun _ => rfl, ⟨h.complete.1, rfl⟩, h.quiet⟩
    have hs := h.sent
    simp only [Out.waiting, out, hTXE, if_true, List.append_nil] at hs ⊢
    rw [hs]
  · rw [updateIrq_out]
    refine ⟨h.periph, h.UE, h.TE, h.connected, ?_, h.timer, fun _ => hTC, ⟨h.complete.1, rfl⟩, h.quiet⟩
    have hs := h.sent
    simp only [Out.waiting, out, hTXE, if_true, List.append_nil] at hs ⊢
    rw [hs]; rfl

/-- How many expiries a transmitter is away from being idle. -/
def Out.behind (r : Out) : ℕ := (if r.TC then 0 else 1) + if r.TXE then 0 else 1

/-- **An expiry of the timer of `d` hands over the byte that waits.** -/
theorem Out.Lags.expire (h : d.out.Lags n.out) (hl : late.noBaudDelay = false)
    (hd : step late d (env, .txTimer) = .ok d') :
    d'.out.Lags n.out ∧ d'.out.behind = d.out.behind - 1 := by
  have htimer : d.txTimer.isSome = !d.SR_TC := h.timer
  have hbusy : d.SR_TXE = false → d.SR_TC = false := h.busy
  cases hd
  dsimp only
  split
  · rename_i hp
    have hTC : d.SR_TC = false := by simpa [hp] using htimer
    rcases Bool.eq_false_or_eq_true d.SR_TXE with hx | hx
    · rw [txComplete_out_empty (s := { d with txTimer := none }) hx]
      refine ⟨⟨h.periph, h.UE, h.TE, h.connected, h.sent, rfl, fun hn => ?_, h.complete, h.quiet⟩, ?_⟩
      · exact absurd (hx.symm.trans hn) (by decide)
      · simp [Out.behind, out, hx, hTC]
    · obtain ⟨timer, ht⟩ : ∃ timer, (txComplete late env { d with txTimer := none }).out = _ :=
        txComplete_out_late hl h.connected.1 hx
      rw [ht]
      refine ⟨⟨h.periph, h.UE, h.TE, h.connected, ?_, rfl, fun _ => rfl, h.complete, h.quiet⟩, ?_⟩
      · have hs := h.sent
        simp only [Out.waiting, out, hx, Bool.false_eq_true, if_false] at hs
        simp only [Out.waiting, if_true, List.append_nil]
        exact hs
      · simp [Out.behind, out, hx, hTC]
  · -- no transmission is under way, so nothing waits either
    rename_i hp
    have hTC : d.SR_TC = true := by simpa [hp] using htimer
    have hTXE : d.SR_TXE = true := by
      by_contra hx
      exact absurd (hTC.symm.trans (hbusy (by simpa using hx))) (by decide)
    exact ⟨h, by simp [Out.behind, out, hTC, hTXE]⟩

/-- The operations of a transmission: writes to `DR`, reads of `SR`, expiries. -/
def Op.Transmits : Op → Prop
  | .write offset _ _ => offset / 4 * 4 = 4
  | .read offset _ => offset / 4 * 4 = 0
  | .txTimer => True
  | _ => False

/-- **An operation of the delayed build is one of the other build.** -/
theorem Out.Lags.step (h : d.out.Lags n.out) (hl : late.noBaudDelay = false)
    (he : early.noBaudDelay = true) {o : UartEnv × Op} (ho : o.2.Transmits)
    (hd : step late d o = .ok d') : ∃ n', step early n o = .ok n' ∧ d'.out.Lags n'.out := by
  obtain ⟨env, o⟩ := o
  cases o with
  | write offset value size =>
    rw [step_write_dr ho] at hd ⊢
    exact h.drWrite hl he hd
  | read offset size =>
    have hsr : ∀ build s, Stm32Uart.step build s (env, .read offset size) = .ok s.srRead.2 := by
      intro build s
      simp only [Stm32Uart.step, Stm32Uart.read, show offset / 4 * 4 = 0 from ho]
      rfl
    have hout : ∀ s : Stm32Uart, s.srRead.2.out = s.out := by
      intro s; unfold srRead; dsimp only; split <;> rfl
    rw [hsr] at hd
    cases hd
    exact ⟨_, hsr _ _, by rw [hout, hout]; exact h⟩
  | txTimer =>
    have hnone : n.txTimer.isSome = false := by rw [show n.txTimer = none from h.quiet]; rfl
    refine ⟨n, ?_, (h.expire hl hd).1⟩
    simp [Stm32Uart.step, hnone]
  | _ => exact ho.elim

theorem Out.Lags.run (hl : late.noBaudDelay = false) (he : early.noBaudDelay = true)
    {l : List (UartEnv × Op)} (ho : ∀ o ∈ l, o.2.Transmits) : ∀ {d n : Stm32Uart},
    d.out.Lags n.out → Machine.run (Stm32Uart.step late) d l = .ok d' →
      ∃ n', Machine.run (Stm32Uart.step early) n l = .ok n' ∧ d'.out.Lags n'.out := by
  induction l with
  | nil => intro d n h hd; cases hd; exact ⟨n, rfl, h⟩
  | cons o l ih =>
    intro d n h hd
    obtain ⟨d₁, hd₁, hd⟩ := Machine.run_cons_ok.1 hd
    obtain ⟨n₁, hn₁, h₁⟩ := h.step hl he (ho o (by simp)) hd₁
    obtain ⟨n', hn', h'⟩ := ih (fun o ho' => ho o (by simp [ho'])) h₁ hd
    exact ⟨n', Machine.run_cons_ok.2 ⟨n₁, hn₁, hn'⟩, h'⟩

/-! ## Catching up -/

theorem Out.behind_le (r : Out) : r.behind ≤ 2 := by
  unfold Out.behind; split <;> split <;> decide

theorem Out.Lags.catchesUp (hl : late.noBaudDelay = false) {envs : List UartEnv} :
    ∀ {d : Stm32Uart}, d.out.Lags n.out → d.out.behind ≤ envs.length →
      ∃ d', Machine.run (Stm32Uart.step late) d (envs.map (·, .txTimer)) = .ok d' ∧
        d'.out.Lags n.out ∧ d'.out.behind = 0 := by
  induction envs with
  | nil => intro d h hb; exact ⟨d, rfl, h, Nat.le_zero.1 hb⟩
  | cons env envs ih =>
    intro d h hb
    obtain ⟨d₁, hd₁⟩ : ∃ d₁, Stm32Uart.step late d (env, .txTimer) = .ok d₁ := ⟨_, rfl⟩
    obtain ⟨h₁, hb₁⟩ := h.expire hl hd₁
    rw [List.length_cons] at hb
    obtain ⟨d', hd', h', hb'⟩ := ih h₁ (by omega)
    exact ⟨d', Machine.run_cons_ok.2 ⟨d₁, hd₁, hd'⟩, h', hb'⟩

theorem Out.Lags.idle (h : d.out.Lags n.out) (hb : d.out.behind = 0) :
    d.SR_TXE = true ∧ d.SR_TC = true ∧ d.sent = n.sent := by
  have hTC : d.SR_TC = true := by
    by_contra hx
    have := hb
    simp [Out.behind, out, hx] at this
  have hTXE : d.SR_TXE = true := by
    by_contra hx
    have := hb
    simp [Out.behind, out, hx] at this
  refine ⟨hTXE, hTC, ?_⟩
  have hs := h.sent
  simp only [Out.waiting, out, hTXE, if_true, List.append_nil] at hs
  exact hs.symm

/-! ## From power-on -/

theorem baudUpdate_out (h : baudUpdate env s = .ok t) : t.out = s.out := by
  obtain ⟨_, _, rfl⟩ := baudUpdate_eq h; rfl

theorem cr1Write_out (h : cr1Write env s v = .ok t) : t.out = { s.out with
    UE := extract32 v 13 1 != 0, TE := extract32 v 3 1 != 0 } := by
  unfold cr1Write at h
  obtain ⟨-, -, h⟩ := Machine.bind_eq_ok.1 h
  cases h
  exact updateIrq_out _

theorem cr3Write_zero (s : Stm32Uart) : cr3Write build env s 0 = { s with CR3 := 0 } :=
  if_neg (show ¬ (0 : BitVec 32) &&& 0x000007ff &&& USART_CR3_DMAT_BIT ≠ 0 by decide)

/-- The builds do not differ in a reset. -/
theorem reset_build (build build' : UartBuild) (env : UartEnv) (s : Stm32Uart) :
    reset build env s = reset build' env s := by
  simp only [reset, cr3Write_zero]

theorem start_build (build build' : UartBuild) (env : UartEnv) (periph : Periph) (chr : Bool)
    (map : BitVec 32) : start build env periph chr map = start build' env periph chr map := by
  simp only [start, reset_build build build']

theorem reset_out (h : reset build env s = .ok t) :
    t.out = { s.out with UE := false, TE := false, TXE := true, TC := true } := by
  simp only [reset, cr3Write_zero] at h
  obtain ⟨s₁, h₁, h⟩ := Machine.bind_eq_ok.1 h
  obtain ⟨s₂, h₂, h⟩ := Machine.bind_eq_ok.1 h
  have ho₁ := baudUpdate_out h₁
  have ho₂ := cr1Write_out h₂
  cases h
  rw [updateIrq_out]
  exact ho₂.trans (by rw [ho₁]; rfl)

theorem start_out {periph : Periph} {chr : Bool} {map : BitVec 32}
    (h : start build env periph chr map = .ok s) :
    s.out = ⟨periph, chr, false, false, true, true, 0, none, []⟩ := by
  obtain ⟨s₁, h₁, h⟩ := Machine.bind_eq_ok.1 h
  have ho : (s₁.connect chr map).out = { s₁.out with chr } := rfl
  rw [reset_out h, ho, reset_out h₁]; rfl

/-- **The two builds of the transmitter agree.**  From power-on and a write to
    `CR1`, any writes to `DR`, reads of `SR` and expiries of the timer that the
    delayed build takes without an error, the other build takes as well.  It has
    then handed over the same bytes and the one that waits in `TDR`; the timer
    runs exactly when `TC` is clear; and two more expiries, or any number from
    there on, leave both idle with the same bytes handed over. -/
theorem builds_agree (hl : late.noBaudDelay = false) (he : early.noBaudDelay = true)
    {periph : Periph} {map : BitVec 32} {env' : UartEnv} {offset size : ℕ} {value : BitVec 64}
    {l : List (UartEnv × Op)} {s₁ : Stm32Uart} (hs : start late env periph true map = .ok s)
    (hcr1 : offset / 4 * 4 = 0x0c) (hs₁ : step late s (env', .write offset value size) = .ok s₁)
    (ho : ∀ o ∈ l, o.2.Transmits) (hd : Machine.run (step late) s₁ l = .ok d) :
    start early env periph true map = .ok s ∧
    step early s (env', .write offset value size) = .ok s₁ ∧
    ∃ n, Machine.run (step early) s₁ l = .ok n ∧
      d.sent ++ (if d.SR_TXE then [] else [d.TDR.setWidth 8]) = n.sent ∧
      (d.txTimer.isSome ↔ d.SR_TC = false) ∧
      ∀ envs : List UartEnv, 2 ≤ envs.length →
        ∃ d', Machine.run (step late) d (envs.map (·, .txTimer)) = .ok d' ∧
          (d'.SR_TXE = true ∧ d'.SR_TC = true) ∧ (n.SR_TXE = true ∧ n.SR_TC = true) ∧
          d'.sent = n.sent := by
  have hw : ∀ build, step build s (env', .write offset value size) =
      cr1Write env' s (laneValue s.CR1 offset value size) := by
    intro build
    show s.write build env' offset value size = _
    rw [Stm32Uart.write, hcr1]; rfl
  rw [hw] at hs₁
  have hout := cr1Write_out hs₁
  rw [start_out hs] at hout
  have hlags : s₁.out.Lags s₁.out := by
    rw [hout]
    exact ⟨rfl, rfl, rfl, ⟨rfl, rfl⟩, rfl, rfl, (nomatch ·), ⟨rfl, rfl⟩, rfl⟩
  obtain ⟨n, hn, h⟩ := Out.Lags.run hl he ho hlags hd
  refine ⟨(start_build early late ..).trans hs, (hw early).trans hs₁, n, hn, h.sent.symm, ?_, ?_⟩
  · rw [show d.txTimer.isSome = !d.SR_TC from h.timer]; simp
  · intro envs hlen
    obtain ⟨d', hd', h', hb⟩ := h.catchesUp hl (Nat.le_trans (Out.behind_le _) hlen)
    obtain ⟨hTXE, hTC, hsent⟩ := h'.idle hb
    exact ⟨d', hd', ⟨hTXE, hTC⟩, h.complete, hsent⟩

/-- Two bytes in a row: the second one waits. -/
theorem builds_agree_two : ∃ rcc s s₁ d n, Stm32Rcc.Reachable zeroHost 8000000 32768 rcc ∧
    start ⟨false, false⟩ (readyEnv rcc) .UART1 true 0 = .ok s ∧
    step ⟨false, false⟩ s (readyEnv rcc, .write 0x0c 0x200c 4) = .ok s₁ ∧
    Machine.run (step ⟨false, false⟩) s₁ [(readyEnv rcc, .write 0x04 0x41 4),
      (readyEnv rcc, .write 0x04 0x42 4)] = .ok d ∧
    Machine.run (step .shipped) s₁ [(readyEnv rcc, .write 0x04 0x41 4),
      (readyEnv rcc, .write 0x04 0x42 4)] = .ok n ∧
    d.sent = [0x41] ∧ n.sent = [0x41, 0x42] := by
  obtain ⟨rcc, hrcc⟩ := Stm32Rcc.exists_reachable zeroHost 8000000 32768
  have hs : start ⟨false, false⟩ (readyEnv rcc) .UART1 true 0 = .ok idle :=
    (start_build ..).trans (start_idle _)
  obtain ⟨a, ha, hao⟩ : ∃ a, step ⟨false, false⟩ enabled (readyEnv rcc, .write 0x04 0x41 4) = .ok a ∧
      a.out = ⟨.UART1, true, true, true, true, false, 0, some 0, [0x41]⟩ := by
    refine ⟨_, (step_write_dr (by decide)).trans
      (drWrite_of_tc rfl rfl (checkTxPin_ready rcc rfl) rfl), ?_⟩
    rw [updateIrq_out, startTx_out_late rfl rfl]
    with_unfolding_all rfl
  obtain ⟨d, hd, hdo⟩ : ∃ d, step ⟨false, false⟩ a (readyEnv rcc, .write 0x04 0x42 4) = .ok d ∧
      d.out = { a.out with TXE := false, TDR := 0x42 } := by
    refine ⟨_, (step_write_dr (by decide)).trans (drWrite_of_txe (congrArg Out.UE hao)
      (congrArg Out.TE hao) (checkTxPin_ready rcc (congrArg Out.periph hao))
      (congrArg Out.TC hao) (congrArg Out.TXE hao)), ?_⟩
    rw [updateIrq_out]
    with_unfolding_all rfl
  rw [hao] at hdo
  have hrun : Machine.run (step ⟨false, false⟩) enabled [(readyEnv rcc, .write 0x04 0x41 4),
      (readyEnv rcc, .write 0x04 0x42 4)] = .ok d :=
    Machine.run_cons_ok.2 ⟨a, ha, Machine.run_cons_ok.2 ⟨d, hd, rfl⟩⟩
  obtain ⟨-, -, n, hn, hsent, -⟩ := @builds_agree ⟨false, false⟩ .shipped _ _ _ rfl rfl _ _ _ _ _ _ _ _ hs
    (show 0x0c / 4 * 4 = 0x0c by decide) (step_enabled rcc) (by simp [Op.Transmits]) hrun
  have hdsent : d.sent = [0x41] := congrArg Out.sent hdo
  refine ⟨rcc, idle, enabled, d, n, hrcc, hs, step_enabled rcc, hrun, hn, hdsent, ?_⟩
  rw [← hsent, hdsent, show d.SR_TXE = false from congrArg Out.TXE hdo,
    show d.TDR = 0x42 from congrArg Out.TDR hdo]
  rfl

end Stm32Uart

end Bluepill

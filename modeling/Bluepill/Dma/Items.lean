/-
  What the items of a transfer count, and what they carry.

  `NDTR` counts the items that are left, so it should be at most the value last written to it,
  and a stream that has none left should transfer none.  The loop of a whole transfer stops at
  0, and a circular transfer starts again at the value that was written.  But a request and an
  expiry look only whether the stream is enabled, which it can be with nothing left
  (`ndtr_bounded_iff`).  A guest that enables a stream only with items left, for transfers that
  are neither circular nor between memories, is safe from that.

  An item goes through a buffer of two bytes.  A source of one byte fills the first, and a
  destination of two bytes gets both (`noLeak_iff`).
-/
import Bluepill.Dma.Flags

namespace Bluepill

open Dma

namespace Stm32Dma

variable {ω : Type} {junk : Stm32Dma → BitVec 8} {bus : Bus ω} {s t u : Stm32Dma} {w : ω}
  {x : Stm32Dma × ω} {c n : ℕ} {now : BitVec 64}

/-! ## The counter -/

/-- The value last written to `NDTR` of stream `c`, if it was `v` before the operation. -/
def ndtrAfter (c : ℕ) (v : BitVec 32) : Op → BitVec 32
  | .write addr data _ => if addr = 16 * c + 0x0c then data.setWidth 32 else v
  | .reset => 0
  | _ => v

/-- The value last written to `NDTR` of stream `c`, and 0 after a reset. -/
def lastNdtr (c : ℕ) (l : List (BitVec 64 × Op)) : BitVec 32 :=
  l.foldl (fun v o => ndtrAfter c v o.2) 0

theorem lastNdtr_snoc (c : ℕ) (l : List (BitVec 64 × Op)) (o : BitVec 64 × Op) :
    lastNdtr c (l ++ [o]) = ndtrAfter c (lastNdtr c l) o.2 := by
  rw [lastNdtr, List.foldl_append]
  rfl

/-- A request, or an expiry, finds the stream it is for disabled or with items left. -/
def ItemLeft (s : Stm32Dma) : Op → Prop
  | .irq level => ∀ c, s.requested level = some (c + 1) → (s.stream c).has DMA_CCR_EN = true →
      (s.stream c).ndtr ≠ 0
  | .circularTimer => s.circularTimer.isSome = true →
      (s.stream (s.chanCircularMode - 1).toNat).has DMA_CCR_EN = true →
      (s.stream (s.chanCircularMode - 1).toNat).ndtr ≠ 0
  | .read _ _ | .write _ _ _ | .reset => True

/-- The counters have gone down, or start again at their saved values, which stay. -/
structure CountsDown (s t : Stm32Dma) : Prop where
  saved : ∀ n, (t.stream n).circularNdtr = (s.stream n).circularNdtr
  ndtr : ∀ n, (t.stream n).ndtr ≤ (s.stream n).ndtr ∨ (t.stream n).ndtr ≤ (s.stream n).circularNdtr

theorem CountsDown.of_stream (h : t.stream = s.stream) : s.CountsDown t :=
  ⟨fun n => by rw [h], fun n => .inl (by rw [h]; exact BitVec.le_refl _)⟩

theorem CountsDown.trans (h : s.CountsDown t) (h' : t.CountsDown u) : s.CountsDown u := by
  refine ⟨fun n => (h'.saved n).trans (h.saved n), fun n => ?_⟩
  rcases h'.ndtr n with hle | hle
  · rcases h.ndtr n with hle' | hle'
    · exact .inl (BitVec.le_trans hle hle')
    · exact .inr (BitVec.le_trans hle hle')
  · exact .inr (h.saved n ▸ hle)

/-- Only the stream `c` changes. -/
theorem CountsDown.of_other (hother : ∀ n, n ≠ c → t.stream n = s.stream n)
    (hsaved : (t.stream c).circularNdtr = (s.stream c).circularNdtr)
    (hndtr : (t.stream c).ndtr ≤ (s.stream c).ndtr ∨ (t.stream c).ndtr ≤ (s.stream c).circularNdtr) :
    s.CountsDown t := by
  constructor
  · intro n
    by_cases hn : n = c
    · subst hn
      exact hsaved
    · rw [hother n hn]
  · intro n
    by_cases hn : n = c
    · subst hn
      exact hndtr
    · rw [hother n hn]
      exact .inl (BitVec.le_refl _)

theorem CountsDown.setStream {st : DmaStream}
    (hsaved : st.circularNdtr = (s.stream c).circularNdtr)
    (hndtr : st.ndtr ≤ (s.stream c).ndtr ∨ st.ndtr ≤ (s.stream c).circularNdtr) :
    s.CountsDown (s.setStream c st) := by
  refine .of_other (c := c) (fun n hn => Function.update_of_ne hn _ _) ?_ ?_
  · rw [setStream_stream]
    exact hsaved
  · rw [setStream_stream]
    exact hndtr

/-- An item is counted, if one is left. -/
theorem CountsDown.finish (h : (s.stream c).ndtr ≠ 0) : s.CountsDown (s.finish c) := by
  obtain ⟨hn, hsaved⟩ := finish_ndtr s c
  refine .of_other (fun n hn => finish_other s hn) hsaved (.inl ?_)
  rw [hn]
  bv_omega

theorem CountsDown.startOnce {streamNo : BitVec 32} {skip : Bool}
    (h : streamStartOnce junk bus s w streamNo skip = .ok x)
    (hleft : (skip || (s.stream (streamNo - 1).toNat).has DMA_CCR_EN) = true →
      (s.stream (streamNo - 1).toNat).ndtr ≠ 0) : s.CountsDown x.1 := by
  rw [(streamStartOnce_ok h).2]
  split
  · rename_i hrun
    exact .finish (hleft hrun)
  · exact .of_stream rfl

/-- The loop of a whole transfer ends with the last item. -/
theorem CountsDown.startWhole (hc : c < DMA_Stream_Count) {fuel : ℕ}
    (h : streamStartWhole junk bus (BitVec.ofNat 32 (c + 1)) true fuel (s, w) = .ok x) :
    s.CountsDown x.1 :=
  (startWhole_inv hc (I := s.CountsDown) (fun _ ht hleft => ht.trans (.finish hleft))
    (.of_stream rfl) h).1

theorem CountsDown.enable {data : BitVec 32} (hc : c < DMA_Stream_Count)
    (h : enable junk bus now s w c data = .ok x) : s.CountsDown x.1 := by
  rcases enable_ok h with ⟨-, -, -, hx⟩ | ⟨-, -, hx⟩ | ⟨-, hx⟩
  · exact .startWhole hc hx
  · exact .of_stream (by rw [hx])
  · exact .of_stream (by rw [hx])

/-- A circular transfer starts again at the saved value. -/
theorem CountsDown.rewind (s : Stm32Dma) (c : ℕ) :
    s.CountsDown (s.setStream c (Stm32Dma.rewind (s.stream c))) := by
  unfold Stm32Dma.rewind
  split
  · exact .setStream rfl (.inr (BitVec.le_refl _))
  · exact .setStream rfl (.inl (BitVec.le_refl _))

theorem CountsDown.circularTimer (h : streamCircularTimer junk bus now s w = .ok x)
    (hleft : (s.stream (s.chanCircularMode - 1).toNat).has DMA_CCR_EN = true →
      (s.stream (s.chanCircularMode - 1).toNat).ndtr ≠ 0) : s.CountsDown x.1 := by
  obtain ⟨⟨t, w₁⟩, ht, h⟩ := Machine.bind_eq_ok.1 h
  have hitem : s.CountsDown t := .startOnce ht (by rw [Bool.false_or]; exact hleft)
  refine (hitem.trans (.rewind t (s.chanCircularMode - 1).toNat)).trans ?_
  dsimp only at h
  split at h <;> (cases h; exact .of_stream rfl)

/-- A write to `NDTR` sets the counter and the saved value. -/
theorem streamWrite_counts {reg : ℕ} {data : BitVec 32} (hc : c < DMA_Stream_Count)
    (h : streamWrite junk bus now s w c reg data = .ok x) :
    (reg = 4 ∧ x.1 = s.setStream c { s.stream c with ndtr := data, circularNdtr := data }) ∨
      reg ≠ 4 ∧ s.CountsDown x.1 := by
  unfold streamWrite at h
  split at h
  · obtain ⟨⟨t, w₁⟩, ht, h⟩ := Machine.bind_eq_ok.1 h
    cases h
    have hen : s.CountsDown t := .enable hc ht
    exact .inr ⟨by decide, hen.trans (.setStream rfl (.inl (BitVec.le_refl _)))⟩
  · split at h
    · cases h
    · cases h
      exact .inl ⟨rfl, rfl⟩
  · cases h
    exact .inr ⟨by decide, .setStream rfl (.inl (BitVec.le_refl _))⟩
  · cases h
    exact .inr ⟨by decide, .setStream rfl (.inl (BitVec.le_refl _))⟩
  · rename_i hreg _ _
    cases h
    exact .inr ⟨hreg, .of_stream rfl⟩

/-- The counters are at most the values last written, and these are the saved ones. -/
structure Counts (v : ℕ → BitVec 32) (s : Stm32Dma) : Prop where
  saved : ∀ n < DMA_Stream_Count, (s.stream n).circularNdtr = v n
  ndtr : ∀ n < DMA_Stream_Count, (s.stream n).ndtr ≤ v n

theorem Counts.countsDown {v : ℕ → BitVec 32} (h : s.Counts v) (hd : s.CountsDown t) : t.Counts v := by
  refine ⟨fun n hn => (hd.saved n).trans (h.saved n hn), fun n hn => ?_⟩
  rcases hd.ndtr n with hle | hle
  · exact BitVec.le_trans hle (h.ndtr n hn)
  · exact h.saved n hn ▸ hle

theorem Counts.write {v : ℕ → BitVec 32} {addr size : ℕ} {value : BitVec 64} (h : s.Counts v)
    (hw : write junk bus now s w addr value size = .ok x) :
    x.1.Counts fun n => ndtrAfter n (v n) (.write addr value size) := by
  have hother : ∀ n, addr ≠ 16 * n + 0x0c → ndtrAfter n (v n) (.write addr value size) = v n :=
    fun n hn => if_neg hn
  obtain ⟨-, ⟨haddr, hx⟩ | ⟨haddr, hc, hw⟩⟩ := write_ok hw
  · rw [funext fun n => hother n (by omega), hx]
    exact ⟨h.saved, h.ndtr⟩
  rcases streamWrite_counts hc hw with ⟨hreg, hx⟩ | ⟨hreg, hd⟩
  · have hself : ndtrAfter ((addr - 8) / 16) (v ((addr - 8) / 16)) (.write addr value size) =
        value.setWidth 32 := if_pos (by omega)
    have hkept : ∀ n, n ≠ (addr - 8) / 16 → x.1.stream n = s.stream n := fun n hn => by
      rw [hx]
      exact Function.update_of_ne hn _ _
    constructor
    · intro n hn
      by_cases hnc : n = (addr - 8) / 16
      · subst hnc
        rw [hx, setStream_stream, hself]
      · rw [hkept n hnc, hother n (by omega)]
        exact h.saved n hn
    · intro n hn
      by_cases hnc : n = (addr - 8) / 16
      · subst hnc
        rw [hx, setStream_stream, hself]
        exact BitVec.le_refl _
      · rw [hkept n hnc, hother n (by omega)]
        exact h.ndtr n hn
  · rw [funext fun n => hother n (by omega)]
    exact h.countsDown hd

/-- **The operations that find an item left keep the counters at most the values last
    written.** -/
theorem Counts.step {v : ℕ → BitVec 32} {o : BitVec 64 × Op} {y : Stm32Dma × ω}
    (h : x.1.Counts v) (hleft : x.1.ItemLeft o.2) (hs : step junk bus x o = .ok y) :
    y.1.Counts fun n => ndtrAfter n (v n) o.2 := by
  obtain ⟨now, o⟩ := o
  obtain ⟨s, w⟩ := x
  cases o with
  | read addr size =>
    obtain ⟨-, -, hs⟩ := Machine.bind_eq_ok.1 hs
    cases hs
    exact h
  | write addr data size => exact h.write hs
  | irq level =>
    rcases irqHandler_ok hs with ⟨-, hy⟩ | ⟨c, hc, hreq, hy⟩
    · rw [hy]
      exact h
    · refine h.countsDown (.startOnce hy ?_)
      rw [streamNo_toNat hc, Bool.false_or]
      exact hleft c hreq
  | circularTimer =>
    change (if s.circularTimer.isSome then
      streamCircularTimer junk bus now { s with circularTimer := none } w else .ok (s, w)) = .ok y at hs
    split at hs
    · rename_i harmed
      have hd : s.CountsDown { s with circularTimer := none } := .of_stream rfl
      exact h.countsDown (hd.trans (.circularTimer hs (hleft harmed)))
    · cases hs
      exact h
  | reset =>
    cases hs
    have hzero : ∀ n < DMA_Stream_Count, (s.reset.stream n).circularNdtr = 0 ∧
        (s.reset.stream n).ndtr = 0 := by
      intro n hn
      have hst : s.reset.stream n = ⟨0, 0, 0, 0, 0, 0, 0, (s.stream n).irqPulses⟩ := if_pos hn
      rw [hst]
      exact ⟨rfl, rfl⟩
    exact ⟨fun n hn => (hzero n hn).1, fun n hn => BitVec.le_of_eq (hzero n hn).2⟩

theorem requested_lt {level : BitVec 32} {channel : ℕ} (h : s.requested level = some channel) :
    ∃ c < DMA_Stream_Count, channel = c + 1 := by
  unfold requested at h
  split at h
  · exact findChannel_lt h
  · exact findChannel_lt h
  · cases h

/-- What an item left means for the transfers. -/
theorem itemLeft_iff (s : Stm32Dma) (o : Op) : s.ItemLeft o ↔
    ∀ c k, s.transfer o = some (c, k) → k ≠ 0 → (s.stream c).ndtr ≠ 0 := by
  have hitem : ∀ n, (∀ c k, s.item n = some (c, k) → k ≠ 0 → (s.stream c).ndtr ≠ 0) ↔
      ((s.stream n).has DMA_CCR_EN = true → (s.stream n).ndtr ≠ 0) := by
    intro n
    unfold item
    constructor
    · intro h hen
      exact h n 1 (if_pos hen) Nat.one_ne_zero
    · intro h c k hck hk
      split at hck
      · rename_i hen
        cases hck
        exact h hen
      · cases hck
  cases o with
  | read addr size => exact iff_of_true trivial fun c k h => by cases h
  | write addr data size =>
    refine iff_of_true trivial fun c k h hk => ?_
    simp only [transfer] at h
    split at h
    · cases h
      rintro hz
      rw [hz] at hk
      exact hk rfl
    · cases h
  | irq level =>
    cases hreq : s.requested level with
    | none =>
      have htr : s.transfer (.irq level) = none := by simp [transfer, hreq]
      rw [htr]
      refine iff_of_true (fun c hc => ?_) fun c k h => by cases h
      rw [hreq] at hc
      cases hc
    | some channel =>
      obtain ⟨n, -, rfl⟩ := requested_lt hreq
      have htr : s.transfer (.irq level) = s.item n := by simp [transfer, hreq]
      rw [htr, hitem]
      constructor
      · intro h
        exact h n hreq
      · intro h c hc
        cases hreq.symm.trans hc
        exact h
  | circularTimer =>
    by_cases harmed : s.circularTimer.isSome = true
    · have htr : s.transfer .circularTimer = s.item (s.chanCircularMode - 1).toNat := if_pos harmed
      rw [htr, hitem]
      exact ⟨fun h => h harmed, fun h _ => h⟩
    · have htr : s.transfer .circularTimer = none := if_neg harmed
      rw [htr]
      exact iff_of_true (fun h => absurd h harmed) fun c k h => by cases h
  | reset => exact iff_of_true trivial fun c k h => by cases h

/-! ### A guest that enables a stream for its items -/

/-- A write that enables a stream finds items left, and asks neither for a circular transfer nor for one between
    memories. -/
def EnablesWithItems (s : Stm32Dma) : Op → Prop
  | .write addr data _ => ∀ c < DMA_Stream_Count, addr = 16 * c + 0x08 → data.setWidth 32 &&& DMA_CCR_EN ≠ 0 →
      data.setWidth 32 &&& DMA_CCR_CIRC = 0 ∧ data.setWidth 32 &&& DMA_CCR_MEM2MEM = 0 ∧ (s.stream c).ndtr ≠ 0
  | _ => True

instance (s : Stm32Dma) : (o : Op) → Decidable (s.EnablesWithItems o)
  | .write _ _ _ => inferInstanceAs (Decidable (∀ c < DMA_Stream_Count, _))
  | .read _ _ | .irq _ | .circularTimer | .reset => inferInstanceAs (Decidable True)

/-- An enabled stream has items left and is not circular, and so the timer is not pending. -/
structure Supplied (s : Stm32Dma) : Prop where
  left : ∀ c < DMA_Stream_Count, (s.stream c).has DMA_CCR_EN = true →
    (s.stream c).ndtr ≠ 0 ∧ (s.stream c).has DMA_CCR_CIRC = false
  timer : s.circularTimer = none

theorem supplied_init : init.Supplied := ⟨fun _ _ hen => by simp [DmaStream.has, init] at hen, rfl⟩

theorem Supplied.setStream {st : DmaStream} (h : s.Supplied)
    (hst : st.has DMA_CCR_EN = true → st.ndtr ≠ 0 ∧ st.has DMA_CCR_CIRC = false) : (s.setStream c st).Supplied := by
  refine ⟨fun n hn => ?_, h.timer⟩
  by_cases hnc : n = c
  · subst hnc
    rw [setStream_stream]
    exact hst
  · rw [show (s.setStream c st).stream n = s.stream n from Function.update_of_ne hnc _ _]
    exact h.left n hn

/-- The last item disables the stream. -/
theorem Supplied.finish (h : s.Supplied) (hc : c < DMA_Stream_Count) (hen : (s.stream c).has DMA_CCR_EN = true) :
    (s.finish c).Supplied := by
  have hcirc : (s.stream c).advance.has DMA_CCR_CIRC = false := (h.left c hc hen).2
  unfold Stm32Dma.finish
  dsimp only
  split
  case isTrue =>
    have hcomplete : (s.setStream c (s.stream c).advance.complete).Supplied := by
      refine h.setStream fun hon => ?_
      rw [DmaStream.complete, if_neg (by rw [hcirc]; decide), DmaStream.has, BitVec.and_assoc] at hon
      simp [DMA_CCR_EN] at hon
    exact ⟨hcomplete.left, hcomplete.timer⟩
  case isFalse hleft => exact h.setStream fun _ => ⟨hleft, hcirc⟩

theorem Supplied.write {addr size : ℕ} {value : BitVec 64} (h : s.Supplied)
    (ho : s.EnablesWithItems (.write addr value size)) (hw : write junk bus now s w addr value size = .ok x) :
    x.1.Supplied := by
  obtain ⟨-, ⟨-, hx⟩ | ⟨haddr, hc, hw⟩⟩ := write_ok hw
  · rw [hx]
    exact ⟨h.left, h.timer⟩
  have hon := ho _ hc
  have hleft := h.left _ hc
  unfold streamWrite at hw
  split at hw
  case h_1 hreg =>
    have hon := hon (by omega)
    obtain ⟨⟨t, w₁⟩, ht, hw⟩ := Machine.bind_eq_ok.1 hw
    cases hw
    -- nothing starts with the write
    have hsame : t = s := by
      unfold enable at ht
      split at ht
      case isTrue hen =>
        obtain ⟨hcirc, hmem, -⟩ := hon hen.2
        rw [if_neg (not_not.2 hmem), if_neg (not_not.2 hcirc)] at ht
        cases ht
        rfl
      case isFalse =>
        cases ht
        rfl
    subst hsame
    refine h.setStream fun hen => ?_
    obtain ⟨hcirc, -, hndtr⟩ := hon (bne_iff_ne.1 hen)
    exact ⟨hndtr, bne_eq_false_iff_eq.2 hcirc⟩
  case h_2 =>
    split at hw
    case isTrue => cases hw
    case isFalse hoff =>
      cases hw
      exact h.setStream fun hen => absurd hen hoff
  case h_3 | h_4 =>
    cases hw
    exact h.setStream hleft
  case h_5 =>
    cases hw
    exact h

theorem Supplied.step {o : BitVec 64 × Op} {y : Stm32Dma × ω} (h : x.1.Supplied) (ho : x.1.EnablesWithItems o.2)
    (hs : step junk bus x o = .ok y) : y.1.Supplied := by
  obtain ⟨now, o⟩ := o
  obtain ⟨s, w⟩ := x
  cases o with
  | read addr size =>
    obtain ⟨-, -, hs⟩ := Machine.bind_eq_ok.1 hs
    cases hs
    exact h
  | write addr data size => exact h.write ho hs
  | irq level =>
    rcases irqHandler_ok hs with ⟨-, hy⟩ | ⟨c, hc, -, hy⟩
    · rw [hy]
      exact h
    · rw [(streamStartOnce_ok hy).2, streamNo_toNat hc, Bool.false_or]
      split
      case isTrue hen => exact h.finish hc hen
      case isFalse => exact h
  | circularTimer =>
    have htimer : s.circularTimer = none := h.timer
    change (if s.circularTimer.isSome then
      streamCircularTimer junk bus now { s with circularTimer := none } w else .ok (s, w)) = .ok y at hs
    rw [htimer, if_neg (by decide)] at hs
    cases hs
    exact h
  | reset =>
    cases hs
    refine ⟨fun n hn hen => ?_, h.timer⟩
    rw [show s.reset.stream n = ⟨0, 0, 0, 0, 0, 0, 0, (s.stream n).irqPulses⟩ from if_pos hn] at hen
    simp [DmaStream.has] at hen

theorem Supplied.itemLeft (h : s.Supplied) (o : Op) : s.ItemLeft o := by
  cases o with
  | irq level =>
    intro c hc hen
    obtain ⟨n, hn, hcn⟩ := requested_lt hc
    cases hcn
    exact (h.left _ hn hen).1
  | circularTimer =>
    intro harmed
    rw [h.timer] at harmed
    cases harmed
  | read addr size | write addr data size | reset => exact trivial

/-! ### Runs -/

/-- All along a run, `NDTR` is at most the value last written, and no stream transfers an item when it has none
    left. -/
def NdtrBounded (junk : Stm32Dma → BitVec 8) (bus : Bus ω) (w : ω) (l : List (BitVec 64 × Op)) : Prop :=
  (∀ l₁ l₂ x, l = l₁ ++ l₂ → Machine.run (step junk bus) (init, w) l₁ = .ok x →
      ∀ c < DMA_Stream_Count, (x.1.stream c).ndtr ≤ lastNdtr c l₁) ∧
    ∀ x o, Machine.Takes (step junk bus) (init, w) l x o →
      ∀ c k, x.1.transfer o.2 = some (c, k) → k ≠ 0 → (x.1.stream c).ndtr ≠ 0

/-- **`NDTR` is at most the value last written**, and no stream transfers an item when it has
    none left, all along a run exactly if every request and every expiry finds its stream
    disabled or with items left.  That is so if the guest enables streams with items left only, and for plain
    transfers. -/
theorem ndtr_bounded_iff {l : List (BitVec 64 × Op)} {y : Stm32Dma × ω}
    (hr : Machine.run (step junk bus) (init, w) l = .ok y) :
    (NdtrBounded junk bus w l ↔
      ∀ x o, Machine.Takes (step junk bus) (init, w) l x o → x.1.ItemLeft o.2) ∧
    ((∀ x o, Machine.Takes (step junk bus) (init, w) l x o → x.1.EnablesWithItems o.2) →
      NdtrBounded junk bus w l) := by
  have hiff : NdtrBounded junk bus w l ↔
      ∀ x o, Machine.Takes (step junk bus) (init, w) l x o → x.1.ItemLeft o.2 := by
    constructor
    · rintro ⟨-, hall⟩ x o ho
      exact (itemLeft_iff x.1 o.2).2 (hall x o ho)
    · intro hall
      refine ⟨?_, fun x o ho => (itemLeft_iff x.1 o.2).1 (hall x o ho)⟩
      rintro l₁ l₂ x rfl hx
      have hinit : init.Counts fun n => lastNdtr n [] := ⟨fun _ _ => rfl, fun _ _ => BitVec.le_refl _⟩
      refine (Machine.history_inv (P := fun l (x : Stm32Dma × ω) => x.1.Counts fun n => lastNdtr n l)
        (C := fun x o => x.1.ItemLeft o.2) ?_ hinit (fun x o ho => hall x o (ho.append l₂)) hx).ndtr
      intro l t o u ht hleft hu
      simp only [lastNdtr_snoc]
      exact ht.step hleft hu
  refine ⟨hiff, fun hguest => hiff.2 ?_⟩
  rintro x o ⟨l₁, l₂, rfl, hx⟩
  have hsupplied : x.1.Supplied :=
    Machine.history_inv (P := fun _ (x : Stm32Dma × ω) => x.1.Supplied) (C := fun x o => x.1.EnablesWithItems o.2)
      (fun _ _ _ _ ht ho hu => ht.step ho hu) supplied_init (fun x o ho => hguest x o (ho.append _)) hx
  exact hsupplied.itemLeft o.2

/-- One item is written for, and one is transferred. -/
theorem ndtr_bounded_once : ∃ y,
    Machine.run (step (fun _ => 0) ram) (init, fun _ => 0) [(0, .write 0x0c 1 4),
      (0, .write 0x14 0x40013804 4), (0, .write 0x08 1 4), (0, .irq 0x10)] = .ok y ∧
    (y.1.stream 0).ndtr = 0 ∧ (y.1.stream 0).ndtr ≤ lastNdtr 0 [(0, .write 0x0c 1 4),
      (0, .write 0x14 0x40013804 4), (0, .write 0x08 1 4), (0, .irq 0x10)] := by
  have hguest : Machine.Meets (step (fun _ => 0) ram) (fun x o => x.1.EnablesWithItems o.2) (init, fun _ => 0)
      [(0, .write 0x0c 1 4), (0, .write 0x14 0x40013804 4), (0, .write 0x08 1 4), (0, .irq 0x10)] := by
    decide +kernel
  refine ⟨_, rfl, rfl, ?_⟩
  have hall := (ndtr_bounded_iff rfl).2 hguest.takes
  exact hall.1 _ [] _ (List.append_nil _).symm rfl 0 (by decide)

/-- The stream is enabled with nothing to transfer, and a request counts down from 0. -/
theorem not_ndtr_bounded_request : ∃ y,
    Machine.run (step (fun _ => 0) ram) (init, fun _ => 0) [(0, .write 0x14 0x40013804 4),
      (0, .write 0x08 1 4), (0, .irq 0x10)] = .ok y ∧
    (y.1.stream 0).ndtr = 0xffffffff ∧ lastNdtr 0 [(0, .write 0x14 0x40013804 4),
      (0, .write 0x08 1 4), (0, .irq 0x10)] = 0 :=
  ⟨_, rfl, rfl, rfl⟩

/-! ## The buffer -/

/-- The bus reads as many bytes as are asked for. -/
def Reads (bus : Bus ω) : Prop :=
  ∀ w a n buf w', bus.read w a n = .ok (buf, w') → buf.length = n

theorem reads_ram : Reads ram := by
  rintro w a n buf w' h
  cases h
  exact Memory.length_get w a n

/-- The source fills what the destination gets. -/
theorem startOnce_filled (hbus : Reads bus) {junk' : Stm32Dma → BitVec 8} (hc : c < DMA_Stream_Count)
    {skip : Bool} (hfill : (skip || (s.stream c).has DMA_CCR_EN) = true →
      (s.stream c).route.2.2 ≤ (s.stream c).route.1.2) :
    streamStartOnce junk bus s w (BitVec.ofNat 32 (c + 1)) skip =
      streamStartOnce junk' bus s w (BitVec.ofNat 32 (c + 1)) skip := by
  unfold streamStartOnce
  rw [streamNo_toNat hc]
  dsimp only
  split
  · rfl
  split
  · rfl
  split
  · rfl
  rename_i hrun
  have hle := hfill (by cases skip <;> simp_all)
  cases hread : bus.read w (s.stream c).route.1.1.toNat (s.stream c).route.1.2 with
  | error e => rfl
  | ok p =>
    obtain ⟨buf, w₁⟩ := p
    have hlen : (s.stream c).route.2.2 ≤ buf.length := hle.trans_eq (hbus _ _ _ _ _ hread).symm
    rw [Machine.ok_bind, Machine.ok_bind]
    dsimp only
    rw [List.take_append_of_le_length hlen, List.take_append_of_le_length hlen]

/-- The sizes of an item that the source does not fill. -/
theorem route_unfilled {st : DmaStream} (hp : st.psize ≠ 0) (hm : st.msize ≠ 0)
    (h : st.route.1.2 < st.route.2.2) : st.route.1.2 = 1 ∧ st.route.2.2 = 2 := by
  have hp2 : st.psize = 0 ∨ st.psize = 1 ∨ st.psize = 2 := msizeTable_cases _
  have hm2 : st.msize = 0 ∨ st.msize = 1 ∨ st.msize = 2 := msizeTable_cases _
  unfold DmaStream.route at h ⊢
  split at h
  · rename_i hdir
    rw [if_pos hdir]
    dsimp only at h ⊢
    omega
  · rename_i hdir
    rw [if_neg hdir]
    dsimp only at h ⊢
    omega

/-- Then the destination gets the second byte of the buffer. -/
theorem moved_unfilled {st : DmaStream} (h₁ : st.route.1.2 = 1) (h₂ : st.route.2.2 = 2) (b : BitVec 8)
    (mem : ℕ → BitVec 8) : st.moved b mem (st.route.2.1.toNat + 1) = b := by
  rw [DmaStream.moved, h₁, h₂, Memory.get_succ]
  simp [Memory.get, Memory.put]

/-- **What an item writes does not depend on the contents of the buffer** exactly if it is not
    transferred, or the destination is not wider than the source. -/
theorem noLeak_iff (hc : c < DMA_Stream_Count) (hp : (s.stream c).psize ≠ 0)
    (hm : (s.stream c).msize ≠ 0) (skip : Bool) :
    (∀ (ω : Type) (bus : Bus ω), Reads bus → ∀ (w : ω) (junk junk' : Stm32Dma → BitVec 8),
      streamStartOnce junk bus s w (BitVec.ofNat 32 (c + 1)) skip =
        streamStartOnce junk' bus s w (BitVec.ofNat 32 (c + 1)) skip) ↔
      ((skip || (s.stream c).has DMA_CCR_EN) = true →
        (s.stream c).route.2.2 ≤ (s.stream c).route.1.2) := by
  constructor
  · intro h hrun
    by_contra hlt
    obtain ⟨h₁, h₂⟩ := route_unfilled hp hm (Nat.lt_of_not_le hlt)
    have hitem : ∀ b : BitVec 8,
        streamStartOnce (fun _ => b) ram s (fun _ => 0) (BitVec.ofNat 32 (c + 1)) skip =
          .ok (s.finish c, (s.stream c).moved b fun _ => 0) := fun b =>
      startOnce_of hc hp hm hrun rfl rfl
    have heq := h _ ram reads_ram (fun _ => 0) (fun _ => 0) (fun _ => 1)
    rw [hitem, hitem] at heq
    have hmem := congrFun (congrArg Prod.snd (Except.ok.inj heq)) ((s.stream c).route.2.1.toNat + 1)
    dsimp only at hmem
    rw [moved_unfilled h₁ h₂, moved_unfilled h₁ h₂] at hmem
    exact absurd hmem (by decide)
  · intro hfill ω bus hbus w junk junk'
    exact startOnce_filled hbus hc hfill

/-- The first stream, enabled, from one byte to `msize` bytes. -/
def fromByte (msize : BitVec 32) : Stm32Dma :=
  init.setStream 0 ⟨0x0001 ||| (msize <<< 10), 1, 0x20000000, 0x20000010, 0, 0, 0, 0⟩

/-- Bytes to bytes. -/
theorem noLeak_iff_byte :
    streamStartOnce (fun _ => 0) ram (fromByte 0) (fun _ => 0) (BitVec.ofNat 32 1) false =
      streamStartOnce (fun _ => 0xaa) ram (fromByte 0) (fun _ => 0) (BitVec.ofNat 32 1) false :=
  (noLeak_iff (s := fromByte 0) (c := 0) (by decide) (by decide) (by decide) false).2
    (fun _ => by decide) _ ram reads_ram _ _ _

/-- A byte to two bytes: the second is that of the buffer. -/
theorem not_noLeak_wide : ((fromByte 2).stream 0).psize = 1 ∧ ((fromByte 2).stream 0).msize = 2 ∧
    ∃ x y, streamStartOnce (fun _ => 0) ram (fromByte 2) (fun _ => 0) (BitVec.ofNat 32 1) false = .ok x ∧
      streamStartOnce (fun _ => 0xaa) ram (fromByte 2) (fun _ => 0) (BitVec.ofNat 32 1) false = .ok y ∧
      x.2 0x20000011 = 0 ∧ y.2 0x20000011 = 0xaa := by
  exact ⟨rfl, rfl, _, _, rfl, rfl, rfl, rfl⟩

end Stm32Dma

end Bluepill

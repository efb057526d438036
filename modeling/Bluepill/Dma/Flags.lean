/-
  The transfer complete flags of the DMA controller.

  A flag should say whether a transfer of its channel has completed since it was
  last cleared, by a write to `IFCR` or by a reset.  `events` are the completions
  and the clears of an operation.  A completion sets its flag (`step_completed`);
  but neither a write to `IFCR` nor a reset clears one.  So the flags are right
  exactly as long as only flags that are not set are cleared (`flags_iff`).
-/
import Bluepill.Dma.Copy

namespace Bluepill

open Dma

namespace Stm32Dma

/-- What happens to the flag of a channel. -/
inductive Event where
  | completed (c : ℕ)
  | cleared (c : ℕ)
  deriving DecidableEq

/-- The channel a request is for. -/
def requested (s : Stm32Dma) : BitVec 32 → Option ℕ
  | 0x10 => s.findChannel (0x40013800 + 0x04) true
  | 0x11 => s.findChannel (0x40013800 + 0x04) false
  | _ => none

/-- One item of channel `c`, if it is enabled. -/
def item (s : Stm32Dma) (c : ℕ) : Option (ℕ × ℕ) :=
  if (s.stream c).has DMA_CCR_EN then some (c, 1) else none

/-- The channel that an operation transfers on, with the number of items: one for
    a request and for an expiry, all when a transfer from memory to memory is
    enabled. -/
def transfer (s : Stm32Dma) : Op → Option (ℕ × ℕ)
  | .write addr data _ =>
    let c := (addr - 8) / 16
    if (8 ≤ addr ∧ (addr - 8) % 16 = 0) ∧ (s.stream c).cr &&& DMA_CCR_EN = 0 ∧
        data.setWidth 32 &&& DMA_CCR_EN ≠ 0 ∧ data.setWidth 32 &&& DMA_CCR_MEM2MEM ≠ 0 then
      some (c, (s.stream c).ndtr.toNat)
    else none
  | .irq level => (s.requested level).bind fun channel => s.item (channel - 1)
  | .circularTimer =>
    if s.circularTimer.isSome then s.item (s.chanCircularMode - 1).toNat else none
  | _ => none

/-- The transfer that an operation completes: it moves all items that are left. -/
def completions (s : Stm32Dma) (o : Op) : List Event :=
  match s.transfer o with
  | some (c, k) => if k ≠ 0 ∧ (s.stream c).ndtr.toNat = k then [.completed c] else []
  | none => []

/-- The channels with one of their four bits set in `IFCR`. -/
def named (data : BitVec 64) : List ℕ :=
  (List.range DMA_Stream_Count).filter fun c => (data.setWidth 32 >>> (4 * c)) &&& (0xf : BitVec 32) ≠ 0

/-- The flags that an operation is to clear. -/
def clears : Op → List Event
  | .write 0x04 data _ => (named data).map .cleared
  | .reset => (List.range DMA_Stream_Count).map .cleared
  | _ => []

def events {ω : Type} (x : Stm32Dma × ω) (o : BitVec 64 × Op) : List Event :=
  x.1.completions o.2 ++ clears o.2

variable {ω : Type} {junk : Stm32Dma → BitVec 8} {bus : Bus ω} {s : Stm32Dma} {w : ω}
  {x : Stm32Dma × ω} {c n : ℕ} {now : BitVec 64}

/-! ## Completions -/

theorem flag_shift : ∀ c < DMA_Stream_Count, ∀ n < DMA_Stream_Count,
    (DMA_ISR_TCIF <<< (c * 4)).getLsbD (4 * n + 1) = decide (n = c) := by
  decide

/-- The last item of a transfer sets the flag of its channel. -/
theorem finish_completed (hc : c < DMA_Stream_Count) (hn : n < DMA_Stream_Count) :
    (s.finish c).completed n = true ↔ s.completed n = true ∨ ((s.stream c).ndtr = 1 ∧ n = c) := by
  by_cases hlast : (s.stream c).ndtr = 1
  · rw [completed, (finish_last hlast).2, BitVec.getLsbD_or, flag_shift c hc n hn, Bool.or_eq_true,
      decide_eq_true_iff]
    exact or_congr_right ⟨fun h => ⟨hlast, h⟩, fun h => h.2⟩
  · rw [finish_more hlast]
    exact ⟨Or.inl, fun h => h.resolve_right fun h' => hlast h'.1⟩

theorem streamStartOnce_completed {streamNo : BitVec 32} {skip : Bool}
    (h : streamStartOnce junk bus s w streamNo skip = .ok x) (hn : n < DMA_Stream_Count) :
    x.1.completed n = true ↔ s.completed n = true ∨
      ((skip || (s.stream (streamNo - 1).toNat).has DMA_CCR_EN) = true ∧
        (s.stream (streamNo - 1).toNat).ndtr = 1 ∧ n = (streamNo - 1).toNat) := by
  obtain ⟨hi, hx⟩ := streamStartOnce_ok h
  rw [hx]
  split
  · rename_i hrun
    rw [finish_completed hi hn]
    exact or_congr_right ⟨fun h' => ⟨hrun, h'⟩, fun h' => h'.2⟩
  · rename_i hrun
    exact ⟨Or.inl, fun h' => h'.resolve_right fun h'' => hrun h''.1⟩

/-- A whole transfer sets the flag, unless there is nothing to transfer. -/
theorem streamStartWhole_completed (hc : c < DMA_Stream_Count) (hn : n < DMA_Stream_Count) {fuel : ℕ}
    (h : streamStartWhole junk bus (BitVec.ofNat 32 (c + 1)) true fuel (s, w) = .ok x) :
    x.1.completed n = true ↔ s.completed n = true ∨ ((s.stream c).ndtr ≠ 0 ∧ n = c) := by
  -- there are items left only if there were, and until the last one the flag is as it was
  have hinv := startWhole_inv hc (I := fun t => ((s.stream c).ndtr = 0 → (t.stream c).ndtr = 0) ∧
    (t.completed n = true ↔ s.completed n = true ∨
      (((s.stream c).ndtr ≠ 0 ∧ n = c) ∧ (t.stream c).ndtr = 0))) ?_ ?_ h
  · obtain ⟨⟨-, hflag⟩, hz⟩ := hinv
    rw [hflag, and_iff_left hz]
  · rintro t ⟨hzero, hflag⟩ hleft
    have hsome : (s.stream c).ndtr ≠ 0 := fun h0 => hleft (hzero h0)
    have hlast : ((t.finish c).stream c).ndtr = 0 ↔ (t.stream c).ndtr = 1 := by
      rw [(finish_ndtr t c).1]
      constructor
      · intro h0; bv_omega
      · intro h1; rw [h1]; rfl
    refine ⟨fun h0 => absurd h0 hsome, ?_⟩
    rw [finish_completed hc hn, hflag, hlast]
    constructor
    · rintro ((hs | ⟨-, h0⟩) | ⟨h1, hnc⟩)
      · exact .inl hs
      · exact absurd h0 hleft
      · exact .inr ⟨⟨hsome, hnc⟩, h1⟩
    · rintro (hs | ⟨⟨-, hnc⟩, h1⟩)
      · exact .inl (.inl hs)
      · exact .inr ⟨h1, hnc⟩
  · exact ⟨id, Or.inl, fun hs => hs.elim id fun h0 => absurd h0.2 h0.1.1⟩

/-! ## The operations -/

theorem mem_completions {o : Op} : .completed n ∈ s.completions o ↔
    ∃ k, s.transfer o = some (n, k) ∧ k ≠ 0 ∧ (s.stream n).ndtr.toNat = k := by
  unfold completions
  cases h : s.transfer o with
  | none => simp
  | some p =>
    obtain ⟨c, k⟩ := p
    dsimp only
    split
    · rename_i hk
      simp only [List.mem_singleton, Event.completed.injEq, Option.some.injEq, Prod.mk.injEq]
      constructor
      · rintro rfl; exact ⟨k, ⟨rfl, rfl⟩, hk⟩
      · rintro ⟨_, ⟨rfl, -⟩, -⟩; rfl
    · rename_i hk
      simp only [List.not_mem_nil, Option.some.injEq, Prod.mk.injEq, false_iff, not_exists]
      rintro k' ⟨⟨rfl, rfl⟩, hk'⟩
      exact hk hk'

/-- One item, of an enabled channel. -/
theorem mem_completions_item {o : Op} (h : s.transfer o = s.item c) :
    .completed n ∈ s.completions o ↔
      (s.stream c).has DMA_CCR_EN = true ∧ (s.stream c).ndtr = 1 ∧ n = c := by
  rw [mem_completions, h, item]
  split
  · rename_i hen
    constructor
    · rintro ⟨k, hk, -, hndtr⟩
      cases hk
      exact ⟨hen, BitVec.eq_of_toNat_eq hndtr, rfl⟩
    · rintro ⟨-, hndtr, rfl⟩
      exact ⟨1, rfl, Nat.one_ne_zero, by rw [hndtr]; rfl⟩
  · rename_i hen
    exact ⟨fun ⟨_, hk, _⟩ => (nomatch hk), fun h' => absurd h'.1 hen⟩

theorem findChannel_lt {a : BitVec 32} {b : Bool} {channel : ℕ}
    (h : s.findChannel a b = some channel) : ∃ c < DMA_Stream_Count, channel = c + 1 := by
  obtain ⟨c, hc, rfl⟩ := Option.map_eq_some_iff.1 h
  exact ⟨c, List.mem_range.1 (List.mem_of_find?_eq_some hc), rfl⟩

theorem irqHandler_ok {level : BitVec 32} (h : irqHandler junk bus s w level = .ok x) :
    (s.requested level = none ∧ x.1 = s) ∨ ∃ c < DMA_Stream_Count,
      s.requested level = some (c + 1) ∧
        streamStartOnce junk bus s w (BitVec.ofNat 32 (c + 1)) false = .ok x := by
  unfold irqHandler at h
  split at h
  · cases h; exact .inl ⟨rfl, rfl⟩
  · split at h
    · cases h
    · rename_i channel hfind
      obtain ⟨c, hc, rfl⟩ := findChannel_lt hfind
      exact .inr ⟨c, hc, hfind, h⟩
  · split at h
    · cases h
    · rename_i channel hfind
      obtain ⟨c, hc, rfl⟩ := findChannel_lt hfind
      exact .inr ⟨c, hc, hfind, h⟩
  · cases h

theorem not_mem_completions {o : Op} (h : s.transfer o = none) : .completed n ∉ s.completions o := by
  simp [completions, h]

theorem write_completed {addr size : ℕ} {value : BitVec 64}
    (h : write junk bus now s w addr value size = .ok x) (hn : n < DMA_Stream_Count) :
    x.1.completed n = true ↔ s.completed n = true ∨
      .completed n ∈ s.completions (.write addr value size) := by
  have hsame : s.transfer (.write addr value size) = none → x.1.isr = s.isr →
      (x.1.completed n = true ↔ s.completed n = true ∨
        .completed n ∈ s.completions (.write addr value size)) := by
    intro hnone hisr
    rw [completed, hisr]
    exact ⟨Or.inl, fun h' => h'.resolve_right (not_mem_completions hnone)⟩
  obtain ⟨-, ⟨haddr, hx⟩ | ⟨haddr, hno, hw⟩⟩ := write_ok h
  · exact hsame (if_neg fun h' => by omega) (by rw [hx])
  rcases streamWrite_ok hw with ⟨hreg, y, st, hy, hx⟩ | ⟨hreg, st, hx⟩
  · rcases enable_ok hy with ⟨hdis, hen, hm, hy⟩ | ⟨-, hne, hy⟩ | ⟨hne, hy⟩
    · have htr : s.transfer (.write addr value size) =
          some ((addr - 8) / 16, (s.stream ((addr - 8) / 16)).ndtr.toNat) :=
        if_pos ⟨⟨haddr, hreg⟩, hdis, hen, hm⟩
      rw [mem_completions, htr, hx]
      change y.1.completed n = true ↔ _
      rw [streamStartWhole_completed hno hn hy]
      refine or_congr_right ?_
      constructor
      · rintro ⟨hz, rfl⟩
        exact ⟨_, rfl, fun h0 => hz (BitVec.eq_of_toNat_eq h0), rfl⟩
      · rintro ⟨k, hk, hk0, hndtr⟩
        cases hk
        exact ⟨fun h0 => hk0 (by rw [h0]; rfl), rfl⟩
    · exact hsame (if_neg fun h' => hne h'.2) (by rw [hx, hy]; rfl)
    · exact hsame (if_neg fun h' => hne h'.2) (by rw [hx, hy]; rfl)
  · exact hsame (if_neg fun h' => hreg h'.1.2) (by rw [hx]; rfl)

/-- **An operation sets the flags of the transfers it completes, and changes no
    other flag.** -/
theorem step_completed {o : BitVec 64 × Op} {y : Stm32Dma × ω} (h : step junk bus x o = .ok y)
    (hn : n < DMA_Stream_Count) :
    y.1.completed n = true ↔ x.1.completed n = true ∨ .completed n ∈ x.1.completions o.2 := by
  obtain ⟨now, o⟩ := o
  obtain ⟨s, w⟩ := x
  cases o with
  | read addr size =>
    obtain ⟨-, -, h⟩ := Machine.bind_eq_ok.1 h
    cases h
    exact ⟨Or.inl, fun h' => h'.resolve_right (not_mem_completions rfl)⟩
  | write addr data size => exact write_completed h hn
  | irq level =>
    rcases irqHandler_ok h with ⟨hnone, hy⟩ | ⟨c, hc, hsome, hy⟩
    · have htr : s.transfer (.irq level) = none := by simp [transfer, hnone]
      rw [hy]
      exact ⟨Or.inl, fun h' => h'.resolve_right (not_mem_completions htr)⟩
    · have htr : s.transfer (.irq level) = s.item c := by simp [transfer, hsome]
      rw [streamStartOnce_completed hy hn, streamNo_toNat hc, mem_completions_item htr, Bool.false_or]
  | circularTimer =>
    change (if s.circularTimer.isSome then
      streamCircularTimer junk bus now { s with circularTimer := none } w else .ok (s, w)) = .ok y at h
    split at h
    · rename_i harmed
      obtain ⟨⟨s₁, w₁⟩, hy, h⟩ := Machine.bind_eq_ok.1 h
      have hisr : y.1.completed n = s₁.completed n := by
        dsimp only at h
        split at h <;> (cases h; rfl)
      have htr : s.transfer .circularTimer = s.item (s.chanCircularMode - 1).toNat := if_pos harmed
      rw [hisr, mem_completions_item htr]
      have hone := streamStartOnce_completed hy hn
      rw [Bool.false_or] at hone
      exact hone
    · rename_i harmed
      cases h
      have htr : s.transfer .circularTimer = none := if_neg harmed
      exact ⟨Or.inl, fun h' => h'.resolve_right (not_mem_completions htr)⟩
  | reset =>
    cases h
    exact ⟨Or.inl, fun h' => h'.resolve_right (not_mem_completions rfl)⟩

/-! ## Runs -/

theorem cleared_not_mem_completions {o : Op} : .cleared n ∉ s.completions o := by
  unfold completions
  split
  · split <;> simp
  · simp

theorem completed_not_mem_clears {o : Op} : .completed n ∉ clears o := by
  unfold clears
  split <;> simp

/-- The operations after which all flags are right: writes to `IFCR` and resets
    that have no flag to clear, and all others. -/
def KeepsFlags (s : Stm32Dma) : Op → Prop
  | .write 0x04 data _ => ∀ n < DMA_Stream_Count, s.completed n = true →
    (data.setWidth 32 >>> (4 * n)) &&& (0xf : BitVec 32) = 0
  | .reset => ∀ n < DMA_Stream_Count, s.completed n = false
  | _ => True

theorem keepsFlags_iff {o : Op} : s.KeepsFlags o ↔
    ∀ n < DMA_Stream_Count, s.completed n = true → .cleared n ∉ clears o := by
  unfold KeepsFlags clears
  split
  · simp only [List.mem_map, Event.cleared.injEq, exists_eq_right, named, List.mem_filter,
      List.mem_range, decide_eq_true_eq, not_and, not_not]
    exact ⟨fun h n hn hc _ => h n hn hc, fun h n hn hc => h n hn hc hn⟩
  · simp only [List.mem_map, Event.cleared.injEq, exists_eq_right, List.mem_range]
    exact ⟨fun h n hn hc => absurd (hc.symm.trans (h n hn)) (by decide),
      fun h n hn => by_contra fun hc => h n hn (by simpa using hc) hn⟩
  · simp

/-- No operation both completes a transfer and clears flags. -/
theorem clears_of_completed {o : Op} (h : .completed n ∈ s.completions o) : clears o = [] := by
  obtain ⟨k, hk, -⟩ := mem_completions.1 h
  cases o with
  | write addr data size =>
    have haddr : 8 ≤ addr := by
      simp only [transfer] at hk
      split at hk
      · rename_i h'; exact h'.1.1
      · cases hk
    unfold clears
    split
    · rename_i heq; cases heq; omega
    · rename_i heq; cases heq
    · rfl
  | reset => cases hk
  | _ => rfl

/-- The flags say what has completed since the last clear. -/
def Right (l : List Event) (s : Stm32Dma) : Prop :=
  ∀ n < DMA_Stream_Count, s.completed n = true ↔ Machine.Since (.completed n) (.cleared n) l

theorem Right.step_iff {l : List Event} {o : BitVec 64 × Op} {y : Stm32Dma × ω} (hr : Right l x.1)
    (h : step junk bus x o = .ok y) : Right (l ++ events x o) y.1 ↔ x.1.KeepsFlags o.2 := by
  rw [keepsFlags_iff]
  have hsince : ∀ n, Machine.Since (.completed n) (.cleared n) (l ++ events x o) ↔
      (.completed n ∈ x.1.completions o.2 ∨ Machine.Since (.completed n) (.cleared n) l) ∧
        .cleared n ∉ clears o.2 := by
    intro n
    have hno : ¬ Machine.Since (.completed n) (.cleared n) (clears o.2) :=
      fun h' => completed_not_mem_clears h'.mem
    rw [events, Machine.since_append, Machine.since_append, Machine.since_iff_mem
      cleared_not_mem_completions, List.mem_append, or_iff_right hno,
      or_iff_right cleared_not_mem_completions, or_and_right]
  constructor
  · intro hright n hn hc hclear
    have := (hright n hn).1 ((step_completed h hn).2 (.inl hc))
    exact ((hsince n).1 this).2 hclear
  · intro hkeep n hn
    rw [step_completed h hn, hsince, hr n hn, or_comm]
    refine ⟨fun h' => ⟨h', fun hclear => ?_⟩, And.left⟩
    rcases h' with h' | h'
    · rw [clears_of_completed h'] at hclear; cases hclear
    · exact hkeep n hn ((hr n hn).2 h') hclear

/-- **The transfer complete flags are right** along a run exactly if every write
    to `IFCR` and every reset finds the flags it is to clear not set. -/
theorem flags_iff {l : List (BitVec 64 × Op)} {y : Stm32Dma × ω}
    (h : Machine.run (step junk bus) (init, w) l = .ok y) :
    (∀ l₁ l₂ x, l = l₁ ++ l₂ → Machine.run (step junk bus) (init, w) l₁ = .ok x →
      ∀ n < DMA_Stream_Count, x.1.completed n = true ↔
        Machine.Since (.completed n) (.cleared n) (Machine.trace (step junk bus) events (init, w) l₁)) ↔
      ∀ x o, Machine.Takes (step junk bus) (init, w) l x o → x.1.KeepsFlags o.2 := by
  refine Machine.trace_iff_takes (I := fun _ => True) (P := fun e (x : Stm32Dma × ω) => Right e x.1)
    (fun _ _ _ _ _ => trivial) (fun _ _ _ _ _ hr hy => hr.step_iff hy) trivial ?_ h
  intro n _
  exact ⟨fun h0 => by simp [completed, init] at h0, fun h0 => absurd h0.mem (List.not_mem_nil)⟩

/-- A transfer of one item, after a write to `IFCR` that finds no flag set. -/
theorem flags_iff_once : ∃ y,
    Machine.run (step (fun _ => 0) ram) (init, fun _ => 0) [(0, .write 0x04 0xf 4),
      (0, .write 0x0c 1 4), (0, .write 0x08 0x4001 4)] = .ok y ∧ y.1.completed 0 = true ∧
    Machine.Since (.completed 0) (.cleared 0) (Machine.trace (step (fun _ => 0) ram) events
      (init, fun _ => 0) [(0, .write 0x04 0xf 4), (0, .write 0x0c 1 4), (0, .write 0x08 0x4001 4)]) := by
  refine ⟨_, rfl, rfl, ?_⟩
  have hall := (@flags_iff _ (fun _ => 0) ram (fun _ => 0)
    [(0, .write 0x04 0xf 4), (0, .write 0x0c 1 4), (0, .write 0x08 0x4001 4)] _ rfl).2 ?_
  · exact (hall _ [] _ (List.append_nil _).symm rfl 0 (by decide)).1 rfl
  · intro x o ho
    rcases Machine.takes_cons ho with ⟨rfl, rfl⟩ | ⟨t₁, ht₁, ho⟩
    · intro n _ hc
      simp [completed, init] at hc
    cases ht₁
    rcases Machine.takes_cons ho with ⟨-, rfl⟩ | ⟨t₂, ht₂, ho⟩
    · trivial
    cases ht₂
    rcases Machine.takes_cons ho with ⟨-, rfl⟩ | ⟨t₃, -, l₁, l₂, hl, -⟩
    · trivial
    · simp at hl

/-- The flag of the first channel is written to `IFCR`, and stays set. -/
theorem not_flags_ifcr : ∃ y,
    Machine.run (step (fun _ => 0) ram) (init, fun _ => 0) [(0, .write 0x0c 1 4),
      (0, .write 0x08 0x4001 4), (0, .write 0x04 0xf 4)] = .ok y ∧ y.1.completed 0 = true ∧
    ¬ Machine.Since (.completed 0) (.cleared 0) (Machine.trace (step (fun _ => 0) ram) events
      (init, fun _ => 0) [(0, .write 0x0c 1 4), (0, .write 0x08 0x4001 4), (0, .write 0x04 0xf 4)]) := by
  have htrace : Machine.trace (step (fun _ => 0) ram) events (init, fun _ => 0)
      [(0, .write 0x0c 1 4), (0, .write 0x08 0x4001 4), (0, .write 0x04 0xf 4)] =
        [.completed 0] ++ [.cleared 0] := rfl
  refine ⟨_, rfl, rfl, ?_⟩
  rw [htrace, Machine.since_append]
  rintro (h | ⟨-, h⟩)
  · exact absurd h.mem (by simp)
  · exact h (by simp)

end Stm32Dma

end Bluepill

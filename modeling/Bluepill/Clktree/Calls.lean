/-
  The clock tree under arbitrary calls.

  `Good` is the invariant of every clock tree the public functions can build:
  all clocks are safe, settled and fed.  Each mutator is one change of one
  clock followed by a propagation from it (`update_eq`), so that it either
  faults on its own clock (`Update.fault`) or restores the invariant; the
  constructors end in `clktree_set_selected_input` or `clktree_set_input_freq`
  and do the same.
-/
import Bluepill.Clktree.Propagation

namespace Bluepill

open Forest

/-- A call of one of the three mutators. -/
inductive Update where
  | scale (multiplier divisor : BitVec 16)
  | enabled (enabled : Bool)
  | selectedInput (selectedInput : ℤ)

/-- A call of the public interface. -/
inductive Call where
  | createSrcClk (name : String) (srcFreq : BitVec 32) (enabled : Bool)
  | createClk (name : String) (multiplier divisor : BitVec 16) (enabled : Bool)
      (maxOutputFreq : BitVec 32) (selectedInput : ℤ) (inputs : List ClkId)
  | adduser (c : ClkId) (user : Irq)
  | update (c : ClkId) (m : Update)

/-- The call names clocks that exist, `n` of them having been created. -/
def Call.On (n : ℕ) : Call → Prop
  | .createSrcClk .. => True
  | .createClk _ _ _ _ _ _ inputs => ∀ i ∈ inputs, i < n
  | .adduser c _ => c < n
  | .update c _ => c < n

namespace ClkTree

def update (fuel : ℕ) (t : ClkTree) (c : ClkId) : Update → Except Fault ClkTree
  | .scale multiplier divisor => t.setScale fuel c multiplier divisor
  | .enabled enabled => t.setEnabled fuel c enabled
  | .selectedInput selectedInput => t.setSelectedInput fuel c selectedInput

def call (fuel : ℕ) (t : ClkTree) : Call → Except Fault ClkTree
  | .createSrcClk name srcFreq enabled => t.createSrcClk fuel name srcFreq enabled
  | .createClk name multiplier divisor enabled maxOutputFreq selectedInput inputs =>
    t.createClk fuel name multiplier divisor enabled maxOutputFreq selectedInput inputs
  | .adduser c user => t.adduser c user
  | .update c m => t.update fuel c m

/-- The trees that calls lead to; a call returns if it does with some fuel. -/
inductive Reachable : ClkTree → Prop
  | empty : Reachable empty
  | call {t u : ClkTree} {k : Call} {fuel : ℕ} :
      Reachable t → k.On t.size → t.call fuel k = .ok u → Reachable u

variable {t u v : ClkTree} {c d p : ClkId} {fuel fuel' : ℕ}

/-! ## More fuel -/

theorem recalc_mono_succ : ∀ {fuel t c u}, recalcOutputFreq fuel t c = .ok u →
    recalcOutputFreq (fuel + 1) t c = .ok u := by
  intro fuel
  induction fuel with
  | zero => intro t c u h; cases h
  | succ fuel ih =>
    intro t c u h
    rw [recalcOutputFreq] at h ⊢
    obtain ⟨f, hf, h⟩ := Machine.bind_eq_ok.1 h
    rw [hf, Machine.ok_bind]
    split at h
    · rename_i hne
      rw [if_pos hne]
      refine Machine.foldlM_ok_mono (fun s k s' hs => ?_) h
      split at hs
      · rename_i hk; rw [if_pos hk]; exact ih hs
      · rename_i hk; rw [if_neg hk]; exact hs
    · rename_i hne; rw [if_neg hne]; exact h

theorem recalc_mono (h : recalcOutputFreq fuel t c = .ok u) (hle : fuel ≤ fuel') :
    recalcOutputFreq fuel' t c = .ok u := by
  induction hle with
  | refl => exact h
  | step _ ih => exact recalc_mono_succ ih

theorem setSelectedInput_mono {i : ℤ} (h : t.setSelectedInput fuel c i = .ok u)
    (hle : fuel ≤ fuel') : t.setSelectedInput fuel' c i = .ok u := by
  unfold setSelectedInput at h ⊢
  split at h
  · rename_i hr
    rw [if_pos hr]
    dsimp only at h ⊢
    split at h
    · rename_i hi
      rw [if_pos hi]
      split at h
      · exact recalc_mono h hle
      · cases h
    · rename_i hi; rw [if_neg hi]; exact recalc_mono h hle
  · cases h

theorem update_mono {m : Update} (h : t.update fuel c m = .ok u) (hle : fuel ≤ fuel') :
    t.update fuel' c m = .ok u := by
  cases m with
  | scale | enabled => exact recalc_mono h hle
  | selectedInput i => exact setSelectedInput_mono h hle

theorem call_mono {k : Call} (h : t.call fuel k = .ok u) (hle : fuel ≤ fuel') :
    t.call fuel' k = .ok u := by
  cases k with
  | createSrcClk => exact recalc_mono h hle
  | createClk =>
    simp only [call, createClk] at h ⊢
    obtain ⟨t', ht', h⟩ := Machine.bind_eq_ok.1 h
    exact Machine.bind_eq_ok.2 ⟨t', ht', setSelectedInput_mono h hle⟩
  | adduser => exact h
  | update c m => exact update_mono h hle

/-! ## The invariant -/

/-- The clock is safe, settled and fed. -/
structure Up (t : ClkTree) (d : ClkId) : Prop where
  safe : (t.clk d).Safe
  settled : (t.clk d).Settled
  fed : t.Fed d

/-- The invariant, of all clocks but `c`. -/
structure GoodBut (t : ClkTree) (c : ClkId) : Prop where
  linked : t.Linked
  input : ∀ d < t.size, ∃ is : List ClkId, (t.clk d).input = none :: is.map some
  up : ∀ d < t.size, d ≠ c → t.Up d

structure Good (t : ClkTree) : Prop where
  linked : t.Linked
  input : ∀ d < t.size, ∃ is : List ClkId, (t.clk d).input = none :: is.map some
  up : ∀ d < t.size, t.Up d

theorem Good.but (h : t.Good) (c : ClkId) : t.GoodBut c := ⟨h.linked, h.input, fun d hd _ => h.up d hd⟩

theorem good_empty : empty.Good where
  linked := ⟨fun d i hi => by simp [empty] at hi, fun d hd => by simp [empty] at hd⟩
  input d hd := by simp [empty] at hd
  up d hd := by simp [empty] at hd

theorem below_lt_size (hl : t.Linked) (hc : c < t.size) (h : Below t.sel c d) : d < t.size := by
  cases h with
  | refl => exact hc
  | step hp _ => exact hl.lt_size hp

theorem GoodBut.ready (h : t.GoodBut c) (hc : c < t.size) (hs : (t.clk c).Safe) : t.Ready c := by
  have hlt : ∀ d, Below t.sel c d → d < t.size := fun d => below_lt_size h.linked hc
  refine ⟨h.linked, fun d hd => ?_, fun d hd hdc => (h.up d (hlt d hd) hdc).settled,
    fun d hd hdc => (h.up d (hlt d hd) hdc).fed⟩
  by_cases hdc : d = c
  · subst hdc; exact hs
  · exact (h.up d (hlt d hd) hdc).safe

theorem Recalculated.good (hr : t.Recalculated c u) (h : t.GoodBut c) (hs : (t.clk c).Safe)
    (hfed : t.Fed c) : u.Good := by
  have hcfg := hr.config
  have ho := h.linked.ordered
  refine ⟨hcfg.linked h.linked, fun d hd => ?_, fun d hd => ⟨?_, ?_, ?_⟩⟩ <;> rw [hcfg.1] at hd
  · rw [hcfg.2 d]; exact h.input d hd
  · rw [hcfg.2 d]
    by_cases hdc : d = c
    · subst hdc; exact hs
    · exact (h.up d hd hdc).safe
  · by_cases hb : Below t.sel c d
    · exact hr.settled d hb
    · rw [hr.frame d hb]
      exact (h.up d hd fun e => hb (e ▸ .refl)).settled
  · by_cases hdc : d = c
    · subst hdc
      intro p hp
      rw [hcfg.sel_eq] at hp
      rw [hr.inputFreq, hr.frame p (not_below_child ho hp), hfed p hp]
    · by_cases hb : Below t.sel c d
      · exact hr.fed d hb hdc
      · intro p hp
        rw [hcfg.sel_eq] at hp
        rw [hr.frame d hb, hr.frame p fun hb' => hb (.step hp hb'), (h.up d hd hdc).fed p hp]

/-- A propagation restores the invariant. -/
theorem GoodBut.recalc (h : t.GoodBut c) (hc : c < t.size) (hs : (t.clk c).Safe) (hfed : t.Fed c)
    (hf : t.size ≤ fuel) :
    ∃ u, recalcOutputFreq fuel t c = .ok u ∧ t.Recalculated c u ∧ u.Good := by
  obtain ⟨u, hu, hr⟩ := recalc_spec fuel t c (h.ready hc hs) hc (by omega)
  exact ⟨u, hu, hr, hr.good h hs hfed⟩

theorem recalc_unsafe (hs : ¬ (t.clk c).Safe) (hf : 0 < fuel) :
    recalcOutputFreq fuel t c = .error .divByZero := by
  obtain ⟨n, rfl⟩ := Nat.exists_eq_succ_of_ne_zero hf.ne'
  have ⟨he, hd⟩ : (t.clk c).enabled = true ∧ (t.clk c).divisor = 0 := by
    simpa [ClkConfig.Safe] using hs
  simp [recalcOutputFreq, Clk.newOutputFreq, he, hd]

/-! ## Changes of one clock -/

/-- The change of a clock leaves its connections and its output alone. -/
structure Keeps (k k' : Clk) : Prop where
  input : k'.input = k.input
  output : k'.output = k.output
  maxOutputFreq : k'.maxOutputFreq = k.maxOutputFreq
  outputFreq : k'.outputFreq = k.outputFreq

/-- What holds of a field of `c` before and after its change holds of the field
    of every clock. -/
theorem modify_field {α : Type} {f : Clk → Clk} (π : Clk → α) (h : π (f (t.clk c)) = π (t.clk c))
    (d : ClkId) : π ((t.modify c f).clk d) = π (t.clk d) := by
  by_cases hd : d = c
  · subst hd; rw [modify_self, h]
  · rw [modify_ne _ _ hd]

theorem GoodBut.modify {f : Clk → Clk} (h : t.GoodBut c) (hk : Keeps (t.clk c) (f (t.clk c))) :
    (t.modify c f).GoodBut c := by
  have hin := modify_field (fun k => k.input) hk.input
  have hout := modify_field (fun k => k.output) hk.output
  have hmax := modify_field (fun k => k.maxOutputFreq) hk.maxOutputFreq
  have hof := modify_field (fun k => k.outputFreq) hk.outputFreq
  refine ⟨⟨fun d i hi => ?_, fun d hd => ?_⟩, fun d hd => ?_, fun d hd hdc => ?_⟩
  · rw [hin] at hi; rw [hout]; exact h.linked.link d i hi
  · rw [hmax]; exact h.linked.noMax d hd
  · rw [hin]; exact h.input d hd
  · have hu := h.up d hd hdc
    refine ⟨?_, ?_, fun p hp => ?_⟩
    · rw [modify_ne _ _ hdc]; exact hu.safe
    · rw [modify_ne _ _ hdc]; exact hu.settled
    · rw [sel, modify_ne _ _ hdc] at hp
      rw [hof, modify_ne _ _ hdc, hu.fed p hp]

/-! ## Mutators -/

/-- The frequency of the clock that a clock with configuration `k` selects. -/
def inputOf (t : ClkTree) (k : ClkConfig) : BitVec 32 :=
  (k.getInputClk.map t.getOutputFreq).getD 0

/-- What a mutator changes in its clock before it propagates the change. -/
def apply (t : ClkTree) : Update → Clk → Clk
  | .scale multiplier divisor, k => { k with multiplier, divisor }
  | .enabled enabled, k => { k with enabled }
  | .selectedInput selectedInput, k =>
    { k with selectedInput, inputFreq := t.inputOf { k with selectedInput } }

/-- The faults of a mutator, on its own clock. -/
def fault (k : ClkConfig) : Update → Option Fault
  | .scale _ divisor => if k.enabled ∧ divisor = 0 then some .divByZero else none
  | .enabled enabled => if enabled ∧ k.divisor = 0 then some .divByZero else none
  | .selectedInput i =>
    if -1 ≤ i ∧ i + 1 < k.input.length then
      if k.enabled ∧ k.divisor = 0 then some .divByZero else none
    else some .assertion

theorem keeps_apply (t : ClkTree) (m : Update) (k : Clk) : Keeps k (t.apply m k) := by
  cases m <;> exact ⟨rfl, rfl, rfl, rfl⟩

theorem modify_modify (t : ClkTree) (c : ClkId) (f g : Clk → Clk) :
    (t.modify c f).modify c g = t.modify c fun k => g (f k) := by
  simp [modify]

theorem modify_congr {f g : Clk → Clk} (h : f (t.clk c) = g (t.clk c)) :
    t.modify c f = t.modify c g := by simp only [modify, h]

/-- An index in range selects no input if it is `-1`, and some input if not. -/
theorem getInputClk_of_range {k : ClkConfig} {i : ℤ} {is : List ClkId}
    (hin : k.input = none :: is.map some) (h₁ : -1 ≤ i) (h₂ : i + 1 < k.input.length) :
    ({ k with selectedInput := i } : ClkConfig).getInputClk =
      if -1 < i then is[i.toNat]? else none := by
  simp only [ClkConfig.getInputClk, hin]
  by_cases hi : -1 < i
  · obtain ⟨n, rfl⟩ : ∃ n : ℕ, i = n := ⟨i.toNat, by omega⟩
    have : ((n : ℤ) + 1).toNat = n + 1 := by omega
    rw [if_pos hi, this, List.getElem?_cons_succ, List.getElem?_map, Int.toNat_natCast]
    cases is[n]? <;> rfl
  · obtain rfl : i = -1 := by omega
    simp

/-- **A mutator is a change of its clock followed by a propagation.** -/
theorem update_eq (h : t.GoodBut c) (hc : c < t.size) {m : Update}
    (hm : fault (t.clk c).toClkConfig m ≠ some .assertion) :
    t.update fuel c m = recalcOutputFreq fuel (t.modify c (t.apply m)) c := by
  cases m with
  | scale | enabled => rfl
  | selectedInput i =>
    obtain ⟨is, hin⟩ := h.input c hc
    have hr : -1 ≤ i ∧ i + 1 < (t.clk c).input.length := by
      by_contra hr; exact hm (by rw [fault, if_neg hr])
    have hsel := getInputClk_of_range hin hr.1 hr.2
    have hof := modify_field (t := t) (c := c) (f := fun k => { k with selectedInput := i })
      (fun k => k.outputFreq) rfl
    simp only [update, setSelectedInput, if_pos hr, modify_self, hsel]
    by_cases hi : -1 < i
    · have hlt : i.toNat < is.length := by
        have := hr.2; rw [hin] at this
        simp only [List.length_cons, List.length_map] at this; omega
      rw [if_pos hi, List.getElem?_eq_getElem hlt] at hsel
      rw [if_pos hi, if_pos hi, List.getElem?_eq_getElem hlt]
      simp only [setInputFreq, setInputFreqWith, modify_modify, getOutputFreq, hof]
      rw [modify_congr (g := t.apply (.selectedInput i))]
      simp only [apply, inputOf, hsel]; rfl
    · rw [if_neg hi] at hsel
      simp only [if_neg hi, setInputFreq, setInputFreqWith, modify_modify]
      rw [modify_congr (g := t.apply (.selectedInput i))]
      simp only [apply, inputOf, hsel]; rfl

theorem inputOf_of_sel {k : ClkConfig} (h : k.getInputClk = some p) :
    t.inputOf k = (t.clk p).outputFreq := by simp only [inputOf, h]; rfl

theorem fed_apply (m : Update) (hfed : (∀ i, m ≠ .selectedInput i) → t.Fed c) :
    (t.modify c (t.apply m)).Fed c := by
  have hof := modify_field (fun k => k.outputFreq) (keeps_apply t m (t.clk c)).outputFreq
  intro p hp
  rw [hof, modify_self]
  rw [sel, modify_self] at hp
  cases m with
  | scale | enabled => exact hfed (by simp) p hp
  | selectedInput i => exact inputOf_of_sel hp

/-- The change is safe unless the mutator faults. -/
theorem safe_apply {m : Update} (hs : (t.clk c).Safe) (hm : fault (t.clk c).toClkConfig m = none) :
    (t.apply m (t.clk c)).Safe := by
  cases m <;> simp_all [fault, apply, ClkConfig.Safe]

theorem not_safe_apply {m : Update} (hm : fault (t.clk c).toClkConfig m = some .divByZero) :
    ¬ (t.apply m (t.clk c)).Safe := by
  cases m with
  | scale | enabled => simp_all [fault, apply, ClkConfig.Safe]
  | selectedInput i =>
    simp only [fault] at hm
    split at hm
    · simp_all [apply, ClkConfig.Safe]
    · cases hm

theorem Notified.of_apply {m : Update} {ev : List Raise}
    (h : Notified (t.modify c (t.apply m)) u ev) : Notified t u ev := by
  have huser := modify_field (t := t) (c := c) (f := t.apply m) (fun k => k.user) (by cases m <;> rfl)
  have hof := modify_field (fun k => k.outputFreq) (keeps_apply t m (t.clk c)).outputFreq
  exact ⟨fun d => by rw [h.users d, huser, hof], h.seen⟩

theorem GoodBut.update (h : t.GoodBut c) (hc : c < t.size) (hf : t.size ≤ fuel) {m : Update}
    (hm : fault (t.clk c).toClkConfig m = none) (hs : (t.clk c).Safe)
    (hfed : (t.modify c (t.apply m)).Fed c) :
    ∃ u, t.update fuel c m = .ok u ∧ (t.modify c (t.apply m)).Recalculated c u ∧ u.Good := by
  rw [update_eq h hc (by rw [hm]; simp)]
  refine (h.modify (keeps_apply t m _)).recalc hc ?_ hfed hf
  rw [modify_self]; exact safe_apply hs hm

/-- **A mutator that does not fault on its clock returns, keeps the invariant,
    and does no more than a propagation does.** -/
theorem update_spec (h : t.Good) (hc : c < t.size) (hf : t.size ≤ fuel) {m : Update}
    (hm : fault (t.clk c).toClkConfig m = none) :
    ∃ u, t.update fuel c m = .ok u ∧ (t.modify c (t.apply m)).Recalculated c u ∧ u.Good :=
  (h.but c).update hc hf hm (h.up c hc).safe (fed_apply m fun _ => (h.up c hc).fed)

/-- A mutator that changes nothing in its clock does nothing. -/
theorem update_same (h : t.Good) (hc : c < t.size) (hf : 0 < fuel) {m : Update}
    (hm : fault (t.clk c).toClkConfig m = none) (hsame : t.apply m (t.clk c) = t.clk c) :
    t.update fuel c m = .ok t := by
  have hmod : t.modify c (t.apply m) = t := by
    rw [modify, hsame, Function.update_eq_self]
  obtain ⟨n, rfl⟩ := Nat.exists_eq_succ_of_ne_zero hf.ne'
  rw [update_eq (h.but c) hc (by rw [hm]; simp), hmod, recalcOutputFreq_succ n (h.up c hc).safe]
  exact if_pos (h.up c hc).settled.symm

theorem fault_cases (k : ClkConfig) (m : Update) :
    fault k m = none ∨ fault k m = some .divByZero ∨ fault k m = some .assertion := by
  cases m with
  | scale | enabled => simp only [fault]; split <;> simp
  | selectedInput i => simp only [fault]; split <;> [split; skip] <;> simp

theorem update_fault (h : t.GoodBut c) (hc : c < t.size) (hf : t.size ≤ fuel) {m : Update} {e : Fault}
    (hm : fault (t.clk c).toClkConfig m = some e) : t.update fuel c m = .error e := by
  rcases fault_cases (t.clk c).toClkConfig m with h' | h' | h' <;> rw [h'] at hm <;> cases hm
  · rw [update_eq h hc (by rw [h']; simp)]
    refine recalc_unsafe ?_ (Nat.lt_of_lt_of_le (Nat.zero_lt_of_lt hc) hf)
    rw [modify_self]; exact not_safe_apply h'
  · cases m with
    | scale | enabled => simp only [fault] at h'; split at h' <;> cases h'
    | selectedInput i =>
      have hr : ¬ (-1 ≤ i ∧ i + 1 < (t.clk c).input.length) := by
        intro hr; rw [fault, if_pos hr] at h'; split at h' <;> cases h'
      simp only [update, setSelectedInput, if_neg hr]

/-! ## Constructors -/

theorem GoodBut.good (h : t.GoodBut c) (hu : t.Up c) : t.Good := by
  refine ⟨h.linked, h.input, fun d hd => ?_⟩
  by_cases hdc : d = c
  · subst hdc; exact hu
  · exact h.up d hd hdc

theorem createGeneric_self (t : ClkTree) (name : String) (mul div : BitVec 16) (e : Bool) :
    (t.createGeneric name mul div e).clk t.size =
      ⟨⟨name, e, CLKTREE_NO_MAX_FREQ, mul, div, [], [], CLKTREE_NO_INPUT, [none]⟩, 0, 0⟩ := by
  simp [createGeneric]

theorem createGeneric_ne (t : ClkTree) (name : String) (mul div : BitVec 16) (e : Bool)
    (h : d ≠ t.size) : (t.createGeneric name mul div e).clk d = t.clk d := by
  simp [createGeneric, h]

theorem Good.createGeneric (h : t.Good) (name : String) (mul div : BitVec 16) (e : Bool) :
    (t.createGeneric name mul div e).GoodBut t.size := by
  refine ⟨⟨fun d i hi => ?_, fun d hd => ?_⟩, fun d hd => ?_, fun d hd hdc => ?_⟩
  · by_cases hdc : d = t.size
    · subst hdc; simp [createGeneric_self] at hi
    · rw [createGeneric_ne _ _ _ _ _ hdc] at hi
      obtain ⟨h₁, h₂, h₃⟩ := h.linked.link d i hi
      rw [createGeneric_ne _ _ _ _ _ (Nat.ne_of_lt (Nat.lt_trans h₁ h₂))]
      exact ⟨h₁, Nat.lt_succ_of_lt h₂, h₃⟩
  · by_cases hdc : d = t.size
    · subst hdc; rw [createGeneric_self]
    · rw [createGeneric_ne _ _ _ _ _ hdc]
      exact h.linked.noMax d (Nat.lt_of_le_of_ne (Nat.le_of_lt_succ hd) hdc)
  · by_cases hdc : d = t.size
    · subst hdc; rw [createGeneric_self]; exact ⟨[], rfl⟩
    · rw [createGeneric_ne _ _ _ _ _ hdc]
      exact h.input d (Nat.lt_of_le_of_ne (Nat.le_of_lt_succ hd) hdc)
  · have hlt : d < t.size := Nat.lt_of_le_of_ne (Nat.le_of_lt_succ hd) hdc
    have hu := h.up d hlt
    refine ⟨?_, ?_, fun p hp => ?_⟩
    · rw [createGeneric_ne _ _ _ _ _ hdc]; exact hu.safe
    · rw [createGeneric_ne _ _ _ _ _ hdc]; exact hu.settled
    · rw [sel, createGeneric_ne _ _ _ _ _ hdc] at hp
      have hpd := h.linked.ordered d p hp
      rw [createGeneric_ne _ _ _ _ _ hdc,
        createGeneric_ne _ _ _ _ _ (Nat.ne_of_lt (Nat.lt_trans hpd hlt)), hu.fed p hp]

/-- The inputs `is` have been connected to the new clock `c`. -/
structure Connected (t : ClkTree) (c : ClkId) (is : List ClkId) (u : ClkTree) : Prop where
  size : u.size = t.size
  self : u.clk c = { t.clk c with input := (t.clk c).input ++ is.map some }
  other : ∀ d, d ≠ c → ∃ output, u.clk d = { t.clk d with output }
  good : u.GoodBut c

theorem addInput_spec (h : t.GoodBut c) (hc : c < t.size) {i : ClkId} (hi : i < c) :
    t.addInput c i = .error .assertion ∨ ∃ u, t.addInput c i = .ok u ∧ t.Connected c [i] u := by
  unfold addInput
  split
  · refine .inr ⟨_, rfl, ?_⟩
    have hic : i ≠ c := Nat.ne_of_lt hi
    set u := (t.modify c fun k => { k with input := k.input ++ [some i] }).modify i
      fun k => { k with output := k.output ++ [c] } with hu
    have hself : u.clk c = { t.clk c with input := (t.clk c).input ++ [some i] } := by
      rw [hu, modify_ne _ _ hic.symm, modify_self]
    have hother : ∀ d, d ≠ c → ∃ o, u.clk d = { t.clk d with output := (t.clk d).output ++ o } := by
      intro d hd
      by_cases hdi : d = i
      · subst hdi; exact ⟨[c], by rw [hu, modify_self, modify_ne _ _ hic]⟩
      · exact ⟨[], by rw [hu, modify_ne _ _ hdi, modify_ne _ _ hd, List.append_nil]⟩
    have hout : ∀ d k, k ∈ (t.clk d).output → k ∈ (u.clk d).output := by
      intro d k hk
      by_cases hd : d = c
      · subst hd; rw [hself]; exact hk
      · obtain ⟨o, ho⟩ := hother d hd
        rw [ho]; exact List.mem_append_left o hk
    refine ⟨rfl, hself, fun d hd => (hother d hd).imp' _ fun o ho => ho, ⟨fun d j hj => ?_,
      fun d hd => ?_⟩, fun d hd => ?_, fun d hd hdc => ?_⟩
    · by_cases hdc : d = c
      · subst hdc
        rw [hself, List.mem_append] at hj
        rcases hj with hj | hj
        · obtain ⟨h₁, h₂, h₃⟩ := h.linked.link d j hj
          exact ⟨h₁, h₂, hout j d h₃⟩
        · obtain rfl : j = i := by simpa using hj
          refine ⟨hi, hc, ?_⟩
          rw [hu, modify_self]; exact List.mem_append_right _ (by simp)
      · obtain ⟨o, ho⟩ := hother d hdc
        rw [ho] at hj
        obtain ⟨h₁, h₂, h₃⟩ := h.linked.link d j hj
        exact ⟨h₁, h₂, hout j d h₃⟩
    · by_cases hdc : d = c
      · subst hdc; rw [hself]; exact h.linked.noMax d hd
      · obtain ⟨o, ho⟩ := hother d hdc
        rw [ho]; exact h.linked.noMax d hd
    · by_cases hdc : d = c
      · subst hdc
        obtain ⟨is, his⟩ := h.input d hd
        exact ⟨is ++ [i], by rw [hself, his]; simp⟩
      · obtain ⟨o, ho⟩ := hother d hdc
        rw [ho]; exact h.input d hd
    · obtain ⟨o, ho⟩ := hother d hdc
      have hup := h.up d hd hdc
      refine ⟨by rw [ho]; exact hup.safe, by rw [ho]; exact hup.settled, fun p hp => ?_⟩
      rw [sel, ho] at hp
      have hof : (u.clk p).outputFreq = (t.clk p).outputFreq := by
        by_cases hpc : p = c
        · subst hpc; rw [hself]
        · obtain ⟨o', ho'⟩ := hother p hpc; rw [ho']
      rw [ho, hof]; exact hup.fed p hp
  · exact .inl rfl

theorem Connected.trans {is js : List ClkId} (h : t.Connected c is u) (h' : u.Connected c js v) :
    t.Connected c (is ++ js) v := by
  refine ⟨h'.size.trans h.size, ?_, fun d hd => ?_, h'.good⟩
  · rw [h'.self, h.self]; simp
  · obtain ⟨o, ho⟩ := h.other d hd
    obtain ⟨o', ho'⟩ := h'.other d hd
    exact ⟨o', by rw [ho', ho]⟩

theorem addInputs_spec : ∀ {is : List ClkId} {t : ClkTree}, t.GoodBut c → c < t.size →
    (∀ i ∈ is, i < c) →
    is.foldlM (fun t i => t.addInput c i) t = .error .assertion ∨
      ∃ u, is.foldlM (fun t i => t.addInput c i) t = .ok u ∧ t.Connected c is u := by
  intro is
  induction is with
  | nil => intro t h _ _; exact .inr ⟨t, rfl, rfl, by simp, fun d _ => ⟨_, rfl⟩, h⟩
  | cons i is ih =>
    intro t h hc hi
    rw [List.foldlM_cons]
    rcases addInput_spec h hc (hi i (by simp)) with he | ⟨u, hu, hcu⟩
    · rw [he]; exact .inl rfl
    · rw [hu, Machine.ok_bind]
      rcases ih hcu.good (hcu.size ▸ hc) fun j hj => hi j (by simp [hj]) with he | ⟨v, hv, hcv⟩
      · exact .inl he
      · exact .inr ⟨v, hv, hcu.trans hcv⟩

/-- **`clktree_create_src_clk` returns, and keeps the invariant.** -/
theorem createSrcClk_spec (h : t.Good) (hf : t.size + 1 ≤ fuel) (name : String) (f : BitVec 32)
    (e : Bool) : ∃ u, t.createSrcClk fuel name f e = .ok u ∧
      ((t.createGeneric name 1 1 e).modify t.size fun k => { k with inputFreq := f }).Recalculated
        t.size u ∧ u.Good := by
  have hself := createGeneric_self t name 1 1 e
  refine ((h.createGeneric name 1 1 e).modify ⟨rfl, rfl, rfl, rfl⟩).recalc (Nat.lt_succ_self _) ?_ ?_
    hf
  · rw [modify_self, hself]; intro _; simp
  · intro p hp
    rw [sel, modify_self, hself] at hp
    simp [ClkConfig.getInputClk, CLKTREE_NO_INPUT] at hp

/-- **`clktree_create_clk` runs out of connections, or faults on the new clock,
    or returns and keeps the invariant.** -/
theorem createClk_spec (h : t.Good) (hf : t.size + 1 ≤ fuel) {is : List ClkId}
    (his : ∀ i ∈ is, i < t.size) (name : String) (mul div : BitVec 16) (e : Bool) (max : BitVec 32)
    (i : ℤ) : t.createClk fuel name mul div e max i is = .error .assertion ∨
      ∃ v, (t.createGeneric name mul div e).Connected t.size is v ∧
        ((∃ x, fault (v.clk t.size).toClkConfig (.selectedInput i) = some x ∧
          t.createClk fuel name mul div e max i is = .error x) ∨
        (fault (v.clk t.size).toClkConfig (.selectedInput i) = none ∧
          ∃ u, t.createClk fuel name mul div e max i is = .ok u ∧
          (v.modify t.size (v.apply (.selectedInput i))).Recalculated t.size u ∧ u.Good)) := by
  unfold createClk
  dsimp only
  rcases addInputs_spec (h.createGeneric name mul div e) (Nat.lt_succ_self _) his with
    he | ⟨v, hv, hcv⟩
  · rw [he]; exact .inl rfl
  · rw [hv, Machine.ok_bind]
    have hc : t.size < v.size := hcv.size ▸ Nat.lt_succ_self _
    have hfv : v.size ≤ fuel := hcv.size ▸ hf
    refine .inr ⟨v, hcv, ?_⟩
    cases hm : fault (v.clk t.size).toClkConfig (.selectedInput i) with
    | some x => exact .inl ⟨x, rfl, update_fault hcv.good hc hfv hm⟩
    | none =>
      have hs : (v.clk t.size).Safe := by
        simp only [fault] at hm
        split at hm
        · simpa [ClkConfig.Safe] using hm
        · cases hm
      exact .inr ⟨rfl, hcv.good.update hc hfv hm hs (fed_apply _ (by simp))⟩

theorem adduser_good (h : t.Good) (hc : c < t.size) {user : Irq} (hu : t.adduser c user = .ok u) :
    u.Good := by
  simp only [adduser] at hu
  split at hu
  · cases hu
    have hup := h.up c hc
    refine ((h.but c).modify ⟨rfl, rfl, rfl, rfl⟩).good ⟨?_, ?_, fun p hp => ?_⟩
    · rw [modify_self]; exact hup.safe
    · rw [modify_self]; exact hup.settled
    · rw [modify_field (fun k => k.outputFreq) rfl, modify_self]
      rw [sel, modify_self] at hp
      exact hup.fed p hp
  · cases hu

/-- **Every call that returns keeps the invariant.** -/
theorem call_good (h : t.Good) {k : Call} (hk : k.On t.size) (hu : t.call fuel k = .ok u) :
    u.Good := by
  replace hu := call_mono hu (Nat.le_max_left fuel (t.size + 1))
  have hf : t.size + 1 ≤ max fuel (t.size + 1) := Nat.le_max_right _ _
  cases k with
  | createSrcClk name f e =>
    obtain ⟨u', hu', -, hg⟩ := createSrcClk_spec h hf name f e
    cases hu.symm.trans hu'; exact hg
  | createClk name mul div e mx i is =>
    rcases createClk_spec h hf hk name mul div e mx i with he | ⟨v, -, ⟨x, -, he⟩ | ⟨-, u', hu', -, hg⟩⟩
    · cases hu.symm.trans he
    · cases hu.symm.trans he
    · cases hu.symm.trans hu'; exact hg
  | adduser c user => exact adduser_good h hk hu
  | update c m =>
    cases hm : fault (t.clk c).toClkConfig m with
    | some x => cases hu.symm.trans (update_fault (h.but c) hk (Nat.le_of_succ_le hf) hm)
    | none =>
      obtain ⟨u', hu', -, hg⟩ := update_spec h hk (Nat.le_of_succ_le hf) hm
      cases hu.symm.trans hu'; exact hg

theorem Reachable.good (h : Reachable t) : t.Good := by
  induction h with
  | empty => exact good_empty
  | call _ hk hu ih => exact call_good ih hk hu

/-- **Notification is exact.**  In every reachable tree, a mutator faults on its
    own clock or returns, and then every registration on a clock has been raised
    once if the output frequency of the clock has changed, and not at all
    otherwise; the frequency its handler reads is already the final one. -/
theorem update_notifies (h : Reachable t) (hc : c < t.size) (hf : t.size ≤ fuel) (m : Update) :
    match fault (t.clk c).toClkConfig m with
    | some e => t.update fuel c m = .error e
    | none => ∃ u ev, t.update fuel c m = .ok u ∧ u.raised = t.raised ++ ev ∧ Notified t u ev := by
  cases hm : fault (t.clk c).toClkConfig m with
  | some e => exact update_fault (h.good.but c) hc hf hm
  | none =>
    obtain ⟨u, hu, hr, -⟩ := update_spec h.good hc hf hm
    obtain ⟨ev, he, hn⟩ := hr.raised
    exact ⟨u, ev, hu, he, hn.of_apply⟩

theorem reachable_run {calls : List Call} (hon : ∀ t k, Machine.Takes (call fuel) empty calls t k → k.On t.size)
    (h : Machine.run (call fuel) empty calls = .ok t) : Reachable t :=
  Machine.history_inv (P := fun _ t => Reachable t) (C := fun t (k : Call) => k.On t.size)
    (fun _ _ _ _ ht hk hu => .call ht hk hu) .empty hon h

instance (n : ℕ) : (k : Call) → Decidable (k.On n)
  | .createSrcClk .. => inferInstanceAs (Decidable True)
  | .createClk _ _ _ _ _ _ inputs => inferInstanceAs (Decidable (∀ i ∈ inputs, i < n))
  | .adduser c _ | .update c _ => inferInstanceAs (Decidable (c < n))

/-- A source with half its frequency in a clock behind it, and another one behind that which is disabled; all have a
    user. -/
def halved : List Call :=
  [.createSrcClk "HSI" 8000000 true, .createClk "HSI/2" 1 2 true 0 0 [0], .createClk "PLL" 9 1 false 0 0 [1],
    .adduser 0 3, .adduser 1 4, .adduser 1 5, .adduser 2 6]

/-- The source is disabled, which changes the first two clocks. -/
theorem update_notifies_disable : ∃ t u ev, Reachable t ∧ t.getOutputFreq 1 = 4000000 ∧ t.getOutputFreq 2 = 0 ∧
    t.update 3 0 (.enabled false) = .ok u ∧ u.raised = t.raised ++ ev ∧ Notified t u ev ∧
    (ev.filter (·.clk = 0)).map (·.irq) = [3] ∧ (ev.filter (·.clk = 1)).map (·.irq) = [4, 5] ∧
    (ev.filter (·.clk = 2)).map (·.irq) = [] := by
  have hmeets : Machine.Meets (call 3) (fun t k => k.On t.size) empty halved := by decide +kernel
  have hrun : ∃ t, Machine.run (call 3) empty halved = .ok t ∧ (t.size = 3 ∧ (t.clk 0).user = [3] ∧
      (t.clk 1).user = [4, 5] ∧ t.getOutputFreq 0 = 8000000 ∧ t.getOutputFreq 1 = 4000000 ∧ t.getOutputFreq 2 = 0) ∧
      Machine.Post (fun u => u.getOutputFreq 0 = 0 ∧ u.getOutputFreq 1 = 0 ∧ u.getOutputFreq 2 = 0) (fun _ => False)
        (t.update 3 0 (.enabled false)) := by
    rw [← Machine.post_ok]
    decide +kernel
  obtain ⟨t, ht, ⟨hsize, huser₀, huser₁, hfreq₀, hfreq₁, hfreq₂⟩, hupdate⟩ := hrun
  have hR : Reachable t := reachable_run hmeets.takes ht
  have hn := update_notifies hR (show 0 < t.size by omega) hsize.le (.enabled false)
  rw [show fault _ (.enabled false) = none by simp [fault]] at hn
  obtain ⟨u, ev, hu, hev, hn⟩ := hn
  rw [hu] at hupdate
  obtain ⟨hfreq₀', hfreq₁', hfreq₂'⟩ := hupdate
  rw [getOutputFreq] at hfreq₀ hfreq₁ hfreq₂ hfreq₀' hfreq₁' hfreq₂'
  refine ⟨t, u, ev, hR, hfreq₁, hfreq₂, hu, hev, hn, ?_, ?_, ?_⟩
  · rw [hn.users, hfreq₀, hfreq₀', huser₀, if_neg (by decide)]
  · rw [hn.users, hfreq₁, hfreq₁', huser₁, if_neg (by decide)]
  · rw [hn.users, hfreq₂, hfreq₂', if_pos rfl]

end ClkTree

end Bluepill

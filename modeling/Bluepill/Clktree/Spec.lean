/-
  The frequencies of a clock tree, as a function of its configuration.

  A `Graph` is a clock tree without frequencies: for each clock, its source
  frequency if it has one, whether it is enabled, its scale, its inputs and the
  selected one.  `Graph.freq` is the frequency each clock should have.

  A call changes the graph in the obvious way (`Graph.apply`).  Along every run
  of valid calls the clock tree and the graph agree (`Agrees`), and, all clocks
  being settled and fed, the output frequencies are those of the graph.
-/
import Bluepill.Clktree.Calls

namespace Bluepill

open Forest

/-- A clock, as configured.  `src` is the frequency of a source clock;
    `selected` is `-1` if no input is selected. -/
structure Node where
  src : Option (BitVec 32)
  enabled : Bool
  multiplier : BitVec 16
  divisor : BitVec 16
  inputs : List ClkId
  selected : ℤ

structure Graph where
  size : ℕ
  node : ClkId → Node

/-- The frequency of a clock with input frequency `f`. -/
def Node.out (n : Node) (f : BitVec 32) : BitVec 32 :=
  if n.enabled then
    (muldiv64 (f.setWidth 64) (n.multiplier.setWidth 32) (n.divisor.setWidth 32)).setWidth 32
  else 0

namespace Graph

def empty : Graph where
  size := 0
  node _ := ⟨none, false, 0, 0, [], -1⟩

/-- The input selected by `d`. -/
def sel (g : Graph) (d : ClkId) : Option ClkId :=
  if -1 < (g.node d).selected then (g.node d).inputs[(g.node d).selected.toNat]? else none

/-- **The frequency of each clock**: its own source frequency, or `0`, if it
    selects no input, and the frequency of the clock it selects otherwise, scaled
    if it is enabled, and `0` if not. -/
def freq (g : Graph) : ClkId → BitVec 32 :=
  flow g.sel (fun d => (g.node d).out) fun d => (g.node d).src.getD 0

def add (g : Graph) (n : Node) : Graph := ⟨g.size + 1, Function.update g.node g.size n⟩

def set (g : Graph) (c : ClkId) (f : Node → Node) : Graph :=
  { g with node := Function.update g.node c (f (g.node c)) }

/-- The effect of a call on the configuration. -/
def apply (g : Graph) : Call → Graph
  | .createSrcClk _ srcFreq enabled => g.add ⟨some srcFreq, enabled, 1, 1, [], -1⟩
  | .createClk _ multiplier divisor enabled _ selected inputs =>
    g.add ⟨none, enabled, multiplier, divisor, inputs, selected⟩
  | .adduser _ _ => g
  | .update c (.scale multiplier divisor) => g.set c fun n => { n with multiplier, divisor }
  | .update c (.enabled enabled) => g.set c fun n => { n with enabled }
  | .update c (.selectedInput selected) => g.set c fun n => { n with selected }

/-- The calls considered: the clocks exist, divisors are not zero, a selection
    is in range, and source clocks keep their source. -/
def Valid (g : Graph) : Call → Prop
  | .createSrcClk .. => True
  | .createClk _ _ divisor _ _ selected inputs =>
    (∀ i ∈ inputs, i < g.size) ∧ divisor ≠ 0 ∧ -1 ≤ selected ∧ selected < inputs.length
  | .adduser c _ => c < g.size
  | .update c (.scale _ divisor) => c < g.size ∧ divisor ≠ 0
  | .update c (.enabled _) => c < g.size
  | .update c (.selectedInput selected) => c < g.size ∧ (g.node c).src = none ∧
    -1 ≤ selected ∧ selected < (g.node c).inputs.length

def applyAll (g : Graph) (l : List Call) : Graph := l.foldl apply g

def ValidAll : Graph → List Call → Prop
  | _, [] => True
  | g, k :: l => g.Valid k ∧ (g.apply k).ValidAll l

theorem apply_size_le (g : Graph) (k : Call) : g.size ≤ (g.apply k).size := by
  rcases k with _ | _ | _ | ⟨c, _ | _ | _⟩ <;> simp [apply, add, set]

theorem applyAll_size_le (l : List Call) : ∀ g : Graph, g.size ≤ (g.applyAll l).size := by
  induction l with
  | nil => exact fun g => Nat.le_refl _
  | cons k l ih => exact fun g => Nat.le_trans (g.apply_size_le k) (ih (g.apply k))

/-- The clock that a call creates. -/
def created : Call → Option Node
  | .createSrcClk _ srcFreq enabled => some ⟨some srcFreq, enabled, 1, 1, [], -1⟩
  | .createClk _ multiplier divisor enabled _ selected inputs =>
    some ⟨none, enabled, multiplier, divisor, inputs, selected⟩
  | .adduser _ _ => none
  | .update _ _ => none

/-- Without updates, the clocks of a configuration are those created, in order. -/
theorem applyAll_node {l : List Call} (hl : ∀ c m, Call.update c m ∉ l) : ∀ (g : Graph) (d : ClkId),
    (g.applyAll l).node d =
      if d < g.size then g.node d else ((l.filterMap created)[d - g.size]?).getD (g.node d) := by
  induction l with
  | nil => simp [applyAll]
  | cons k l ih =>
    intro g d
    have hk := ih (fun c m hm => hl c m (List.mem_cons_of_mem k hm)) (g.apply k) d
    have hadd (n : Node) (hn : created k = some n) (ha : g.apply k = g.add n) :
        (g.applyAll (k :: l)).node d = if d < g.size then g.node d else
          (((k :: l).filterMap created)[d - g.size]?).getD (g.node d) := by
      refine hk.trans ?_
      rw [ha, List.filterMap_cons_some hn]
      rcases Nat.lt_trichotomy d g.size with hd | rfl | hd
      · simp [add, hd, Nat.lt_succ_of_lt hd, Function.update_of_ne hd.ne]
      · simp [add]
      · have hsub : d - g.size = (d - (g.size + 1)) + 1 :=
          (Nat.succ_pred_eq_of_pos (Nat.sub_pos_of_lt hd)).symm
        simp [add, hsub, Nat.not_lt_of_lt hd, Nat.not_lt_of_le hd, Function.update_of_ne hd.ne']
    cases k with
    | createSrcClk name srcFreq enabled => exact hadd _ rfl rfl
    | createClk name multiplier divisor enabled maxOutputFreq selected inputs => exact hadd _ rfl rfl
    | adduser c user => exact hk
    | update c m => exact absurd List.mem_cons_self (hl c m)

theorem validAll_append {g : Graph} {l l' : List Call} :
    g.ValidAll (l ++ l') ↔ g.ValidAll l ∧ (g.applyAll l).ValidAll l' := by
  induction l generalizing g with
  | nil => simp [ValidAll, applyAll]
  | cons k l ih => simp only [List.cons_append, ValidAll, ih, and_assoc]; rfl

end Graph

/-! ## Agreement -/

/-- The clock `k` has the configuration `n`, and the source frequency of `n` as
    its input if it selects none. -/
structure Node.Matches (n : Node) (k : Clk) : Prop where
  enabled : k.enabled = n.enabled
  multiplier : k.multiplier = n.multiplier
  divisor : k.divisor = n.divisor
  input : k.input = none :: n.inputs.map some
  selected : k.selectedInput = n.selected
  source : n.selected = -1 → k.inputFreq = n.src.getD 0
  nonzero : n.divisor ≠ 0
  range : -1 ≤ n.selected ∧ n.selected < n.inputs.length

/-- The clock tree has the configuration `g`. -/
structure Agrees (g : Graph) (t : ClkTree) : Prop where
  size : t.size = g.size
  node : ∀ d < g.size, (g.node d).Matches (t.clk d)
  fresh : ∀ d, g.size ≤ d → g.sel d = none

variable {g : Graph} {t u : ClkTree} {c d : ClkId} {n : Node} {k : Clk} {fuel : ℕ}

theorem Node.Matches.getInputClk (h : n.Matches k) :
    k.getInputClk = if -1 < n.selected then n.inputs[n.selected.toNat]? else none := by
  have hlen : (n.selected + 1 : ℤ) < k.input.length := by
    rw [h.input]; have := h.range.2; simp; omega
  have := ClkTree.getInputClk_of_range h.input h.range.1 hlen
  rwa [← h.selected] at this ⊢

theorem Node.Matches.out (h : n.Matches k) : k.out = n.out := by
  funext f
  simp only [ClkConfig.out, ClkConfig.scale, Node.out, h.enabled, h.multiplier, h.divisor]

theorem Agrees.sel_eq (h : Agrees g t) (hd : d < g.size) : t.sel d = g.sel d :=
  (h.node d hd).getInputClk

theorem Agrees.ordered (h : Agrees g t) (hg : t.Good) : Ordered g.sel := by
  intro d p hp
  by_cases hd : d < g.size
  · exact hg.linked.ordered d p (h.sel_eq hd ▸ hp)
  · rw [h.fresh d (Nat.le_of_not_lt hd)] at hp; cases hp

/-- A propagation does not change what agrees with the configuration. -/
theorem ClkTree.Recalculated.matches (hr : t.Recalculated c u) (h : n.Matches (t.clk d)) :
    n.Matches (u.clk d) := by
  have hcfg := hr.config.2 d
  refine ⟨by rw [hcfg, h.enabled], by rw [hcfg, h.multiplier], by rw [hcfg, h.divisor],
    by rw [hcfg, h.input], by rw [hcfg, h.selected], fun hs => ?_, h.nonzero, h.range⟩
  rw [← h.source hs]
  by_cases hdc : d = c
  · subst hdc; exact hr.inputFreq
  · rw [hr.frame]
    intro hb
    obtain ⟨p, hp, -⟩ := hb.parent hdc
    rw [ClkTree.sel, h.getInputClk, if_neg (by omega)] at hp
    cases hp

/-- **All clocks of a good tree have the frequency of the configuration.** -/
theorem Agrees.outputFreq_eq (h : Agrees g t) (hg : t.Good) :
    ∀ d < g.size, t.getOutputFreq d = g.freq d := by
  refine flow_unique (h.ordered hg) (fun d hd hroot => ?_) (fun d hd p hp => ?_)
  · have hu := hg.up d (h.size ▸ hd)
    have hm := h.node d hd
    have hsel : (g.node d).selected = -1 := by
      by_contra hne
      have hr := hm.range
      rw [Graph.sel, if_pos (by omega), List.getElem?_eq_none_iff] at hroot
      omega
    rw [ClkTree.getOutputFreq, hu.settled, hm.out, hm.source hsel]
  · have hu := hg.up d (h.size ▸ hd)
    have hflow := ClkTree.flowsAt hu.settled hu.fed p (by rwa [h.sel_eq hd])
    simp only [(h.node d hd).out] at hflow; exact hflow

/-! ## Runs -/

theorem agrees_empty : Agrees .empty .empty where
  size := rfl
  node d hd := absurd hd (Nat.not_lt_zero d)
  fresh _ _ := rfl

theorem Graph.set_sel_ne {f : Node → Node} (h : d ≠ c) : (g.set c f).sel d = g.sel d := by
  simp [sel, set, h]

theorem Graph.add_sel_ne (h : d ≠ g.size) : (g.add n).sel d = g.sel d := by
  simp [sel, add, h]

/-- A changed clock agrees with its changed configuration. -/
theorem Agrees.set {f : Node → Node} {f' : Clk → Clk} (h : Agrees g t) (hc : c < g.size)
    (hf : (f (g.node c)).Matches (f' (t.clk c)))
    (hr : (t.modify c f').Recalculated c u) : Agrees (g.set c f) u := by
  refine ⟨hr.config.1.trans h.size, fun d hd => hr.matches ?_, fun d hd => ?_⟩
  · by_cases hdc : d = c
    · subst hdc; simpa [Graph.set] using hf
    · rw [ClkTree.modify_ne _ _ hdc]
      simpa [Graph.set, hdc] using h.node d hd
  · have hdc : d ≠ c := fun e => absurd hc (e ▸ Nat.not_lt_of_le hd)
    rw [Graph.set_sel_ne hdc]; exact h.fresh d hd

/-- A new clock agrees with its configuration. -/
theorem Agrees.add (h : Agrees g t) (hsize : u.size = t.size + 1) (hn : n.Matches (u.clk t.size))
    (hold : ∀ d < g.size, (g.node d).Matches (u.clk d)) : Agrees (g.add n) u := by
  refine ⟨by rw [hsize, h.size]; rfl, fun d hd => ?_, fun d hd => ?_⟩
  · by_cases hdc : d = g.size
    · subst hdc; rw [← h.size]; simpa [Graph.add, h.size] using hn
    · have := hold d (Nat.lt_of_le_of_ne (Nat.le_of_lt_succ hd) hdc)
      simpa [Graph.add, hdc] using this
  · rw [Graph.add_sel_ne (Nat.ne_of_gt hd)]; exact h.fresh d (Nat.le_of_succ_le hd)

theorem Graph.Valid.lt_size {m : Update} (hv : g.Valid (.update c m)) : c < g.size := by
  cases m <;> first | exact hv | exact hv.1

/-- A valid call does not fault on its clock. -/
theorem Agrees.fault_eq_none (h : Agrees g t) {m : Update} (hv : g.Valid (.update c m)) :
    ClkTree.fault (t.clk c).toClkConfig m = none := by
  have hm := h.node c hv.lt_size
  have hlen : (t.clk c).input.length = (g.node c).inputs.length + 1 := by rw [hm.input]; simp
  have hdiv : (t.clk c).divisor ≠ 0 := hm.divisor ▸ hm.nonzero
  cases m with
  | scale => exact if_neg fun h => hv.2 h.2
  | enabled => exact if_neg fun h => hdiv h.2
  | selectedInput i =>
    rw [ClkTree.fault, if_pos ⟨hv.2.2.1, by rw [hlen]; have := hv.2.2.2; push_cast; omega⟩]
    exact if_neg fun h => hdiv h.2

/-- The input of a clock is that of the input it selects. -/
theorem Agrees.inputFreq_eq (h : Agrees g t) (hg : t.Good) (hc : c < g.size)
    (hsrc : (g.node c).src = none) :
    (t.clk c).inputFreq = t.inputOf (t.clk c).toClkConfig := by
  have hm := h.node c hc
  cases hp : (t.clk c).getInputClk with
  | some p => rw [ClkTree.inputOf_of_sel hp, (hg.up c (h.size ▸ hc)).fed p hp]
  | none =>
    have hsel : (g.node c).selected = -1 := by
      by_contra hne
      have hr := hm.range
      rw [hm.getInputClk, if_pos (by omega), List.getElem?_eq_none_iff] at hp
      omega
    rw [hm.source hsel, hsrc, ClkTree.inputOf, hp]
    rfl

/-- **A valid call that does not change the configuration of its clock does nothing.** -/
theorem update_eq_self (hg : t.Good) (h : Agrees g t) {m : Update} (hv : g.Valid (.update c m))
    (hnode : (g.apply (.update c m)).node c = g.node c) (hf : 0 < fuel) :
    t.update fuel c m = .ok t := by
  have hc := hv.lt_size
  have hm := h.node c hc
  refine ClkTree.update_same hg (h.size ▸ hc) hf (h.fault_eq_none hv) ?_
  cases m with
  | scale mul div =>
    simp only [Graph.apply, Graph.set, Function.update_self] at hnode
    have hmul : mul = (t.clk c).multiplier := (congrArg Node.multiplier hnode).trans hm.multiplier.symm
    have hdiv : div = (t.clk c).divisor := (congrArg Node.divisor hnode).trans hm.divisor.symm
    rw [hmul, hdiv]
    rfl
  | enabled e =>
    simp only [Graph.apply, Graph.set, Function.update_self] at hnode
    have he : e = (t.clk c).enabled := (congrArg Node.enabled hnode).trans hm.enabled.symm
    rw [he]
    rfl
  | selectedInput i =>
    simp only [Graph.apply, Graph.set, Function.update_self] at hnode
    have hi : i = (t.clk c).selectedInput := (congrArg Node.selected hnode).trans hm.selected.symm
    have hfreq := h.inputFreq_eq hg hc hv.2.1
    rw [hi]
    show { t.clk c with inputFreq := t.inputOf (t.clk c).toClkConfig } = t.clk c
    rw [← hfreq]

/-- **A valid mutator call returns, and agrees with the configuration.** -/
theorem update_agrees (hg : t.Good) (h : Agrees g t) {m : Update} (hv : g.Valid (.update c m))
    (hf : g.size ≤ fuel) :
    ∃ u, t.update fuel c m = .ok u ∧ u.Good ∧ Agrees (g.apply (.update c m)) u := by
  have hc := hv.lt_size
  have hm := h.node c hc
  have hlen : (t.clk c).input.length = (g.node c).inputs.length + 1 := by rw [hm.input]; simp
  have hfault := h.fault_eq_none hv
  obtain ⟨u, hu, hr, hgu⟩ := ClkTree.update_spec hg (h.size ▸ hc) (h.size ▸ hf) hfault
  refine ⟨u, hu, hgu, ?_⟩
  cases m with
  | scale mul div =>
    refine h.set (f := fun n => { n with multiplier := mul, divisor := div }) hc ?_ hr
    exact ⟨hm.enabled, rfl, rfl, hm.input, hm.selected, hm.source, hv.2, hm.range⟩
  | enabled e =>
    refine h.set (f := fun n => { n with enabled := e }) hc ?_ hr
    exact ⟨rfl, hm.multiplier, hm.divisor, hm.input, hm.selected, hm.source, hm.nonzero, hm.range⟩
  | selectedInput i =>
    refine h.set (f := fun n => { n with selected := i }) hc ?_ hr
    refine ⟨hm.enabled, hm.multiplier, hm.divisor, hm.input, rfl, fun hi => ?_, hm.nonzero, hv.2.2⟩
    -- without a selection the input frequency is zero, as that of a clock without source
    have hnone := ClkTree.getInputClk_of_range hm.input hv.2.2.1
      (by rw [hlen]; have := hv.2.2.2; push_cast; omega)
    change i = -1 at hi
    rw [if_neg (by omega)] at hnone
    simp only [ClkTree.apply, ClkTree.inputOf, hnone, hv.2.1]; rfl

/-- **A valid call runs out of connections, or returns and agrees with the
    configuration.** -/
theorem call_agrees (hg : t.Good) (h : Agrees g t) {k : Call} (hv : g.Valid k)
    (hf : (g.apply k).size ≤ fuel) : t.call fuel k = .error .assertion ∨
      ∃ u, t.call fuel k = .ok u ∧ u.Good ∧ Agrees (g.apply k) u := by
  cases k with
  | createSrcClk name f e =>
    change g.size + 1 ≤ fuel at hf
    rw [← h.size] at hf
    obtain ⟨u, hu, hr, hgu⟩ := ClkTree.createSrcClk_spec hg hf name f e
    refine .inr ⟨u, hu, hgu, h.add hr.config.1 (hr.matches ?_) fun d hd => hr.matches ?_⟩
    · rw [ClkTree.modify_self, ClkTree.createGeneric_self]
      exact ⟨rfl, rfl, rfl, rfl, rfl, fun _ => rfl, by simp, by simp⟩
    · have hne : d ≠ t.size := h.size ▸ Nat.ne_of_lt hd
      rw [ClkTree.modify_ne _ _ hne, ClkTree.createGeneric_ne _ _ _ _ _ hne]; exact h.node d hd
  | createClk name mul div e mx i is =>
    obtain ⟨his, hdiv, hi₁, hi₂⟩ := hv
    change g.size + 1 ≤ fuel at hf
    rw [← h.size] at hf
    rcases ClkTree.createClk_spec hg hf (h.size ▸ his) name mul div e mx i with
      he | ⟨v, hcv, ⟨x, hx, he⟩ | ⟨-, u, hu, hr, hgu⟩⟩
    · exact .inl he
    · have hself := hcv.self
      rw [ClkTree.createGeneric_self] at hself
      rw [hself, ClkTree.fault, if_pos ⟨hi₁, by simp; omega⟩, if_neg fun h => hdiv h.2] at hx
      cases hx
    · refine .inr ⟨u, hu, hgu, h.add (hr.config.1.trans hcv.size) (hr.matches ?_) fun d hd =>
        hr.matches ?_⟩
      · rw [ClkTree.modify_self, hcv.self, ClkTree.createGeneric_self]
        refine ⟨rfl, rfl, rfl, rfl, rfl, fun hi => ?_, hdiv, hi₁, hi₂⟩
        change i = -1 at hi
        subst hi; rfl
      · have hne : d ≠ t.size := h.size ▸ Nat.ne_of_lt hd
        obtain ⟨o, ho⟩ := hcv.other d hne
        have hm := h.node d hd
        rw [ClkTree.modify_ne _ _ hne, ho, ClkTree.createGeneric_ne _ _ _ _ _ hne]
        exact ⟨hm.enabled, hm.multiplier, hm.divisor, hm.input, hm.selected, hm.source, hm.nonzero,
          hm.range⟩
  | adduser c user =>
    cases hu : t.adduser c user with
    | error x =>
      simp only [ClkTree.adduser] at hu
      split at hu <;> cases hu
      exact .inl (by simp only [ClkTree.call, ClkTree.adduser, *]; rfl)
    | ok u =>
      refine .inr ⟨u, hu, ClkTree.adduser_good hg (h.size ▸ hv) hu, ?_⟩
      simp only [ClkTree.adduser] at hu
      split at hu <;> cases hu
      refine ⟨h.size, fun d hd => ?_, h.fresh⟩
      have hm := h.node d hd
      by_cases hdc : d = c
      · subst hdc
        rw [ClkTree.modify_self]
        exact ⟨hm.enabled, hm.multiplier, hm.divisor, hm.input, hm.selected, hm.source, hm.nonzero,
          hm.range⟩
      · rw [ClkTree.modify_ne _ _ hdc]; exact hm
  | update c m => exact .inr (update_agrees hg h hv (Nat.le_trans (g.apply_size_le _) hf))

theorem run_agrees {l : List Call} : ∀ {g : Graph} {t : ClkTree}, t.Good → Agrees g t →
    g.ValidAll l → (g.applyAll l).size ≤ fuel →
    Machine.run (ClkTree.call fuel) t l = .error .assertion ∨
      ∃ u, Machine.run (ClkTree.call fuel) t l = .ok u ∧ u.Good ∧ Agrees (g.applyAll l) u := by
  induction l with
  | nil => intro g t hg h _ _; exact .inr ⟨t, rfl, hg, h⟩
  | cons k l ih =>
    intro g t hg h hv hf
    rcases call_agrees hg h hv.1 (Nat.le_trans ((g.apply k).applyAll_size_le l) hf) with
      he | ⟨u, hu, hgu, hau⟩
    · exact .inl (by rw [Machine.run, he])
    · rw [Machine.run, hu]; exact ih hgu hau hv.2 hf

/-- As `run_agrees`, for mutators only, which need no new connections. -/
theorem run_updates_agrees {l : List (ClkId × Update)} : ∀ {g : Graph} {t : ClkTree}, t.Good →
    Agrees g t → g.ValidAll (l.map fun m => .update m.1 m.2) → g.size ≤ fuel →
    ∃ u, Machine.run (ClkTree.call fuel) t (l.map fun m => .update m.1 m.2) = .ok u ∧ u.Good ∧
      Agrees (g.applyAll (l.map fun m => .update m.1 m.2)) u := by
  induction l with
  | nil => intro g t hg h _ _; exact ⟨t, rfl, hg, h⟩
  | cons m l ih =>
    intro g t hg h hv hf
    obtain ⟨u, hu, hgu, hau⟩ := update_agrees hg h hv.1 hf
    have hsize : (g.apply (.update m.1 m.2)).size ≤ fuel := by
      rcases m with ⟨c, _ | _ | _⟩ <;> exact hf
    obtain ⟨v, hv, hgv, hav⟩ := ih hgu hau hv.2 hsize
    exact ⟨v, Machine.run_cons_ok.2 ⟨u, hu, hv⟩, hgv, hav⟩

/-- **The frequencies of a clock tree are those of its configuration.**  For
    every tree that valid calls build, no list of connections overflowing, and
    every valid sequence of mutator calls after that, all calls return, and every
    clock has the frequency that the recursive specification gives it. -/
theorem outputFreq_eq_freq (build : List Call) (muts : List (ClkId × Update)) (fuel : ℕ)
    (hv : Graph.empty.ValidAll (build ++ muts.map fun m => .update m.1 m.2))
    (hf : (Graph.empty.applyAll build).size ≤ fuel)
    (hb : Machine.run (ClkTree.call fuel) .empty build ≠ .error .assertion) :
    let g := Graph.empty.applyAll (build ++ muts.map fun m => .update m.1 m.2)
    ∃ t, Machine.run (ClkTree.call fuel) .empty (build ++ muts.map fun m => .update m.1 m.2) = .ok t ∧
      Agrees g t ∧ (∀ d < g.size, t.getOutputFreq d = g.freq d) ∧
      ∀ d < g.size, g.freq d = (g.node d).out (match g.sel d with
        | some p => g.freq p
        | none => (g.node d).src.getD 0) := by
  intro g
  rw [Graph.validAll_append] at hv
  rcases run_agrees ClkTree.good_empty agrees_empty hv.1 hf with he | ⟨t, ht, hg, ha⟩
  · exact absurd he hb
  · obtain ⟨u, hu, hgu, hau⟩ := run_updates_agrees hg ha hv.2 hf
    have hgraph : (Graph.empty.applyAll build).applyAll (muts.map fun m => .update m.1 m.2) = g :=
      (List.foldl_append).symm
    rw [hgraph] at hau
    refine ⟨u, Machine.run_append_ok.2 ⟨t, ht, hu⟩, hau, hau.outputFreq_eq hgu, fun d _ => ?_⟩
    cases hs : g.sel d with
    | none => exact flow_root hs
    | some p => exact flow_child (hau.ordered hgu) hs

theorem outputFreq_eq_freq_half :
    let l : List Call := [.createSrcClk "HSI" 8000000 true,
      .createClk "HSI/2" 1 2 true CLKTREE_NO_MAX_FREQ 0 [0], .update 1 (.scale 3 2)]
    ∃ t, Machine.run (ClkTree.call 2) .empty l = .ok t ∧
      ∀ d < 2, t.getOutputFreq d = (Graph.empty.applyAll l).freq d := by
  obtain ⟨t, ht, -, hfreq, -⟩ := outputFreq_eq_freq [.createSrcClk "HSI" 8000000 true,
    .createClk "HSI/2" 1 2 true CLKTREE_NO_MAX_FREQ 0 [0]] [(1, .scale 3 2)] 2
    (by simp [Graph.ValidAll, Graph.Valid, Graph.apply, Graph.add, Graph.empty]) (by decide) (by
      intro h
      have hok : (Machine.run (ClkTree.call 2) .empty [.createSrcClk "HSI" 8000000 true,
        .createClk "HSI/2" 1 2 true CLKTREE_NO_MAX_FREQ 0 [0]]).isOk = true := by decide
      rw [h] at hok; cases hok)
  exact ⟨t, ht, hfreq⟩

end Bluepill

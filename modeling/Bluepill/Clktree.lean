/-
  The clock tree building blocks (`hw/arm/stm32_clktree.c`).

  A clock is known by its number, in the order of creation; a `ClkTree` holds
  the clocks created so far, the notifications raised so far (`qemu_set_irq` on
  the users of a clock) and the warnings printed so far.

  `recalcOutputFreq` recurses through the outputs of a clock.  Its depth is
  bounded by `fuel`; running out of it is a fault of its own, which never
  happens with as much fuel as there are clocks (`recalc_spec`).

  User handlers do not call back into the clock tree, so the notifications are
  recorded, each with the frequencies a handler would read at that moment.
-/
import Bluepill.Qemu
import Mathlib.Logic.Function.Basic

namespace Bluepill

/-- A clock, by its number. -/
abbrev ClkId := ℕ

/-- A user `qemu_irq`, by its number. -/
abbrev Irq := ℕ

def CLKTREE_MAX_IRQ : ℕ := 16
def CLKTREE_MAX_OUTPUT : ℕ := 16
def CLKTREE_MAX_INPUT : ℕ := 16
def CLKTREE_NO_INPUT : ℤ := -1
def CLKTREE_NO_MAX_FREQ : BitVec 32 := BitVec.allOnes 32

/-- What does not change when a frequency does.  `input` starts with `NULL`,
    which `selectedInput = -1` selects. -/
structure ClkConfig where
  name : String
  enabled : Bool
  maxOutputFreq : BitVec 32
  multiplier : BitVec 16
  divisor : BitVec 16
  user : List Irq
  output : List ClkId
  selectedInput : ℤ
  input : List (Option ClkId)

/-- `struct Clk`. -/
structure Clk extends ClkConfig where
  inputFreq : BitVec 32
  outputFreq : BitVec 32

/-- A notification: user `irq` of clock `clk` is raised, and a handler reading
    the frequency of a clock gets `freq`. -/
structure Raise where
  clk : ClkId
  irq : Irq
  freq : ClkId → BitVec 32

structure ClkTree where
  size : ℕ
  clk : ClkId → Clk
  raised : List Raise
  warned : List (ClkId × BitVec 32)

namespace ClkTree

/-- Update one clock. -/
def modify (t : ClkTree) (c : ClkId) (f : Clk → Clk) : ClkTree :=
  { t with clk := Function.update t.clk c (f (t.clk c)) }

/-- `clktree_is_enabled`. -/
def isEnabled (t : ClkTree) (c : ClkId) : Bool := (t.clk c).enabled

/-- `clktree_get_output_freq`. -/
def getOutputFreq (t : ClkTree) (c : ClkId) : BitVec 32 := (t.clk c).outputFreq

end ClkTree

/-- `clktree_get_input_clk`. -/
def ClkConfig.getInputClk (k : ClkConfig) : Option ClkId :=
  (k.input[(k.selectedInput + 1).toNat]?).join

/-- The output frequency of an enabled clock with input frequency `f`. -/
def ClkConfig.scale (k : ClkConfig) (f : BitVec 32) : BitVec 32 :=
  (muldiv64 (f.setWidth 64) (k.multiplier.setWidth 32) (k.divisor.setWidth 32)).setWidth 32

/-- `new_output_freq`: `0` if the output is disabled. -/
def Clk.newOutputFreq (k : Clk) : Except Fault (BitVec 32) :=
  if k.enabled then
    if k.divisor = 0 then .error .divByZero else .ok (k.scale k.inputFreq)
  else .ok 0

namespace ClkTree

/-- Check the new frequency against the maximum, then notify the users. -/
def notify (t : ClkTree) (c : ClkId) (newOutputFreq : BitVec 32) : ClkTree :=
  { t with
    warned := if (t.clk c).maxOutputFreq < newOutputFreq then t.warned ++ [(c, newOutputFreq)]
      else t.warned
    raised := t.raised ++ (t.clk c).user.map fun irq => ⟨c, irq, t.getOutputFreq⟩ }

/-- `clktree_set_input_freq`, over the recursive call it ends in. -/
def setInputFreqWith (recalc : ClkTree → ClkId → Except Fault ClkTree) (t : ClkTree) (c : ClkId)
    (inputFreq : BitVec 32) : Except Fault ClkTree :=
  recalc (t.modify c fun k => { k with inputFreq }) c

/-- `clktree_recalc_output_freq`. -/
def recalcOutputFreq : ℕ → ClkTree → ClkId → Except Fault ClkTree
  | 0, _, _ => .error .outOfFuel
  | fuel + 1, t, c => do
    let newOutputFreq ← (t.clk c).newOutputFreq
    if newOutputFreq ≠ (t.clk c).outputFreq then
      let t := (t.modify c fun k => { k with outputFreq := newOutputFreq }).notify c newOutputFreq
      -- only children that have selected this clock follow it
      (t.clk c).output.foldlM (fun t next =>
        if (t.clk next).getInputClk = some c then
          setInputFreqWith (recalcOutputFreq fuel) t next newOutputFreq
        else .ok t) t
    else .ok t

/-- `clktree_set_input_freq`. -/
def setInputFreq (fuel : ℕ) : ClkTree → ClkId → BitVec 32 → Except Fault ClkTree :=
  setInputFreqWith (recalcOutputFreq fuel)

/-! ## Mutators -/

/-- `clktree_set_scale`. -/
def setScale (fuel : ℕ) (t : ClkTree) (c : ClkId) (multiplier divisor : BitVec 16) :
    Except Fault ClkTree :=
  recalcOutputFreq fuel (t.modify c fun k => { k with multiplier, divisor }) c

/-- `clktree_set_enabled`. -/
def setEnabled (fuel : ℕ) (t : ClkTree) (c : ClkId) (enabled : Bool) : Except Fault ClkTree :=
  recalcOutputFreq fuel (t.modify c fun k => { k with enabled }) c

/-- `clktree_set_selected_input`. -/
def setSelectedInput (fuel : ℕ) (t : ClkTree) (c : ClkId) (selectedInput : ℤ) :
    Except Fault ClkTree :=
  -- the comparison is unsigned: an index below `-1` fails it as well
  if -1 ≤ selectedInput ∧ selectedInput + 1 < (t.clk c).input.length then
    let t := t.modify c fun k => { k with selectedInput }
    if -1 < selectedInput then
      match (t.clk c).getInputClk with
      | some p => setInputFreq fuel t c (t.getOutputFreq p)
      | none => .error .nullDeref
    else setInputFreq fuel t c 0
  else .error .assertion

/-! ## Construction -/

def empty : ClkTree where
  size := 0
  clk _ := ⟨⟨"", false, 0, 0, 0, [], [], -1, []⟩, 0, 0⟩
  raised := []
  warned := []

/-- `clktree_create_generic`: the clock gets the next number. -/
def createGeneric (t : ClkTree) (name : String) (multiplier divisor : BitVec 16)
    (enabled : Bool) : ClkTree :=
  { t with
    size := t.size + 1
    clk := Function.update t.clk t.size
      { name, enabled, multiplier, divisor, maxOutputFreq := CLKTREE_NO_MAX_FREQ
        user := [], output := [], selectedInput := CLKTREE_NO_INPUT, input := [none]
        inputFreq := 0, outputFreq := 0 } }

/-- `clktree_create_src_clk`. -/
def createSrcClk (fuel : ℕ) (t : ClkTree) (name : String) (srcFreq : BitVec 32)
    (enabled : Bool) : Except Fault ClkTree :=
  setInputFreq fuel (t.createGeneric name 1 1 enabled) t.size srcFreq

/-- Connect input `i` to clock `c`, in both directions (`CLKTREE_ADD_LINK`
    twice). -/
def addInput (t : ClkTree) (c i : ClkId) : Except Fault ClkTree :=
  if (t.clk c).input.length < CLKTREE_MAX_INPUT ∧ (t.clk i).output.length < CLKTREE_MAX_OUTPUT then
    .ok ((t.modify c fun k => { k with input := k.input ++ [some i] }).modify i
      fun k => { k with output := k.output ++ [c] })
  else .error .assertion

/-- `clktree_create_clk`.  The argument `max_output_freq` is not used. -/
def createClk (fuel : ℕ) (t : ClkTree) (name : String) (multiplier divisor : BitVec 16)
    (enabled : Bool) (_maxOutputFreq : BitVec 32) (selectedInput : ℤ) (inputs : List ClkId) :
    Except Fault ClkTree := do
  let c := t.size
  let t ← inputs.foldlM (fun t i => t.addInput c i) (t.createGeneric name multiplier divisor enabled)
  t.setSelectedInput fuel c selectedInput

/-- `clktree_adduser`. -/
def adduser (t : ClkTree) (c : ClkId) (user : Irq) : Except Fault ClkTree :=
  if (t.clk c).user.length < CLKTREE_MAX_IRQ then
    .ok (t.modify c fun k => { k with user := k.user ++ [user] })
  else .error .assertion

end ClkTree

end Bluepill

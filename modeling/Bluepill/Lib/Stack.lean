/-
  A descending stack of words in a memory of bytes.

  Addresses have 32 bits and wrap around.  `pushAll mem sp ws` pushes words below `sp` and
  `popAll mem sp n` pops `n` words from `sp` on; `popAll_pushAll` is their round trip.  Only
  the cells of the words matter (`popAll_congr`), and only those change (`pushAll_of_not`).
-/
import Mathlib.Data.BitVec
import Mathlib.Tactic.Common

namespace Stack

abbrev Mem := BitVec 32 → BitVec 8

/-- `x` is one of the `k` cells from `a` on. -/
def Cell (a : BitVec 32) (k : ℕ) (x : BitVec 32) : Prop := (x - a).toNat < k

instance (a : BitVec 32) (k : ℕ) (x : BitVec 32) : Decidable (Cell a k x) :=
  inferInstanceAs (Decidable (_ < _))

/-- The word at `a`, the low byte first. -/
def load (mem : Mem) (a : BitVec 32) : BitVec 32 := mem (a + 3) ++ mem (a + 2) ++ mem (a + 1) ++ mem a

def store (mem : Mem) (a w : BitVec 32) : Mem :=
  fun x => if Cell a 4 x then w.extractLsb' (8 * (x - a).toNat) 8 else mem x

/-- The words are pushed in turn, so that the last one is on top. -/
def pushAll (mem : Mem) (sp : BitVec 32) : List (BitVec 32) → Mem
  | [] => mem
  | w :: ws => pushAll (store mem (sp - 4) w) (sp - 4) ws

/-- The words popped, the top one first. -/
def popAll (mem : Mem) (sp : BitVec 32) : ℕ → List (BitVec 32)
  | 0 => []
  | n + 1 => load mem sp :: popAll mem (sp + 4) n

variable {mem mem' : Mem} {a sp w x : BitVec 32} {ws : List (BitVec 32)} {k m n : ℕ}

/-- The cells from a later address on, seen from an earlier one. -/
theorem Cell.toNat_sub (h : Cell (a + BitVec.ofNat 32 k) m x) (hk : k + m ≤ 2 ^ 32) :
    (x - a).toNat = k + (x - (a + BitVec.ofNat 32 k)).toNat := by
  have hsplit : x - a = x - (a + BitVec.ofNat 32 k) + BitVec.ofNat 32 k := by
    rw [← sub_sub, sub_add_cancel]
  have hlt : (x - (a + BitVec.ofNat 32 k)).toNat < m := h
  have hk' : k % 2 ^ 32 = k := Nat.mod_eq_of_lt (by omega)
  rw [hsplit, BitVec.toNat_add, BitVec.toNat_ofNat, hk', Nat.mod_eq_of_lt (by omega), Nat.add_comm]

theorem Cell.of_add (h : Cell (a + BitVec.ofNat 32 k) m x) (hk : k + m ≤ 2 ^ 32) :
    k ≤ (x - a).toNat ∧ Cell a (k + m) x := by
  have hsub := h.toNat_sub hk
  unfold Cell at h ⊢
  omega

theorem cell_forall {p : BitVec 32 → Prop} (h : ∀ i : Fin k, p (a + BitVec.ofNat 32 i)) (hx : Cell a k x) : p x := by
  have hp := h ⟨(x - a).toNat, hx⟩
  rw [BitVec.ofNat_toNat, BitVec.setWidth_eq, add_sub_cancel] at hp
  exact hp

/-- The `k` cells from `a` on and those from `b` on are different. -/
def Apart (a b : BitVec 32) (k : ℕ) : Prop := ¬ Cell a k b ∧ ¬ Cell b k a

instance (a b : BitVec 32) (k : ℕ) : Decidable (Apart a b k) := inferInstanceAs (Decidable (_ ∧ _))

theorem Apart.not_cell {b : BitVec 32} (h : Apart a b k) (hx : Cell b k x) : ¬ Cell a k x := by
  intro hx'
  obtain ⟨hab, hba⟩ := h
  unfold Cell at *
  bv_omega

theorem store_of_not (h : ¬ Cell a 4 x) : store mem a w x = mem x := if_neg h

theorem load_congr (h : ∀ x, Cell a 4 x → mem x = mem' x) : load mem a = load mem' a := by
  unfold load
  rw [h a, h (a + 1), h (a + 2), h (a + 3)] <;> simp [Cell]

/-- A byte of a stored word. -/
theorem store_add (d : BitVec 32) (hd : d.toNat < 4) :
    store mem a w (a + d) = w.extractLsb' (8 * d.toNat) 8 := by
  simp [store, Cell, hd]

theorem load_store : load (store mem a w) a = w := by
  have h0 : store mem a w a = w.extractLsb' 0 8 := by simp [store, Cell]
  have h1 : store mem a w (a + 1) = w.extractLsb' 8 8 := store_add 1 (by decide)
  have h2 : store mem a w (a + 2) = w.extractLsb' 16 8 := store_add 2 (by decide)
  have h3 : store mem a w (a + 3) = w.extractLsb' 24 8 := store_add 3 (by decide)
  unfold load
  rw [h0, h1, h2, h3]
  refine BitVec.eq_of_getLsbD_eq fun i hi => ?_
  -- bit `i` is bit `i % 8` of byte `i / 8`
  simp only [BitVec.getLsbD_append, BitVec.getLsbD_extractLsb']
  split_ifs <;> (rw [decide_eq_true (by omega), Bool.true_and]; congr 1; omega)

theorem sp_sub (a : BitVec 32) (n : ℕ) :
    a + BitVec.ofNat 32 (4 * (n + 1)) - 4 = a + BitVec.ofNat 32 (4 * n) := by
  rw [Nat.mul_succ, BitVec.ofNat_add, ← add_assoc]
  exact add_sub_cancel_right _ _

/-- What is pushed lies below the stack pointer. -/
theorem pushAll_of_not (h : ¬ Cell a (4 * ws.length) x) :
    pushAll mem (a + BitVec.ofNat 32 (4 * ws.length)) ws x = mem x := by
  induction ws generalizing mem with
  | nil => rfl
  | cons w ws ih =>
    have hlt := (x - a).isLt
    rw [List.length_cons] at h ⊢
    rw [pushAll, sp_sub, ih, store_of_not]
    · intro hcell
      unfold Cell at h
      exact h (Nat.mul_succ 4 _ ▸ (Cell.of_add hcell (by omega)).2)
    · unfold Cell at h ⊢
      omega

theorem popAll_congr (h : ∀ x, Cell sp (4 * n) x → mem x = mem' x) (hn : 4 * n ≤ 2 ^ 32) :
    popAll mem sp n = popAll mem' sp n := by
  induction n generalizing sp with
  | zero => rfl
  | succ n ih =>
    have hload : load mem sp = load mem' sp := by
      refine load_congr fun x hx => h x ?_
      unfold Cell at hx ⊢
      omega
    rw [popAll, popAll, hload, ih (fun x hx => h x ?_) (by omega)]
    have hof := Cell.of_add (a := sp) (k := 4) hx (by omega)
    rw [Nat.mul_succ, Nat.add_comm]
    exact hof.2

theorem popAll_succ (mem : Mem) (sp : BitVec 32) (n : ℕ) :
    popAll mem sp (n + 1) = popAll mem sp n ++ [load mem (sp + BitVec.ofNat 32 (4 * n))] := by
  induction n generalizing sp with
  | zero => simp [popAll]
  | succ n ih =>
    rw [popAll, ih, popAll, List.cons_append, Nat.mul_succ, Nat.add_comm, BitVec.ofNat_add, ← add_assoc]
    rfl

/-- **What was pushed is popped.** -/
theorem popAll_pushAll (h : 4 * ws.length ≤ 2 ^ 32) :
    popAll (pushAll mem (a + BitVec.ofNat 32 (4 * ws.length)) ws) a ws.length = ws.reverse := by
  induction ws generalizing mem with
  | nil => rfl
  | cons w ws ih =>
    rw [List.length_cons] at h ⊢
    rw [pushAll, sp_sub, popAll_succ, ih (by omega), List.reverse_cons]
    congr 2
    -- the words pushed later lie below this one
    rw [load_congr fun x hx => pushAll_of_not fun hlow => ?_, load_store]
    have hof := Cell.of_add hx (by omega)
    unfold Cell at hlow
    omega

end Stack

/-
  The CRC unit (`hw/arm/stm32_crc.c`).

  A word written to `DR` enters the checksum byte by byte, through a table of 256
  entries.  `crc32` is what the unit is for: the bits of the words enter one by one,
  from bit 31 down to bit 0.  The table holds eight shifts of every byte
  (`crctable_eq`), so that a write to `DR` feeds the 32 bits of the word
  (`drWrite_eq`), and after any accesses `DR` is the checksum of the words written
  since the last reset (`dr_eq_crc32`).
-/
import Bluepill.Lib.Crc
import Bluepill.Qemu

namespace Bluepill

/-- `crctable`, of `unsigned long`. -/
def crctable : List (BitVec 64) :=
  [0x00000000, 0x04c11db7, 0x09823b6e, 0x0d4326d9, 0x130476dc, 0x17c56b6b, 0x1a864db2, 0x1e475005,
   0x2608edb8, 0x22c9f00f, 0x2f8ad6d6, 0x2b4bcb61, 0x350c9b64, 0x31cd86d3, 0x3c8ea00a, 0x384fbdbd,
   0x4c11db70, 0x48d0c6c7, 0x4593e01e, 0x4152fda9, 0x5f15adac, 0x5bd4b01b, 0x569796c2, 0x52568b75,
   0x6a1936c8, 0x6ed82b7f, 0x639b0da6, 0x675a1011, 0x791d4014, 0x7ddc5da3, 0x709f7b7a, 0x745e66cd,
   0x9823b6e0, 0x9ce2ab57, 0x91a18d8e, 0x95609039, 0x8b27c03c, 0x8fe6dd8b, 0x82a5fb52, 0x8664e6e5,
   0xbe2b5b58, 0xbaea46ef, 0xb7a96036, 0xb3687d81, 0xad2f2d84, 0xa9ee3033, 0xa4ad16ea, 0xa06c0b5d,
   0xd4326d90, 0xd0f37027, 0xddb056fe, 0xd9714b49, 0xc7361b4c, 0xc3f706fb, 0xceb42022, 0xca753d95,
   0xf23a8028, 0xf6fb9d9f, 0xfbb8bb46, 0xff79a6f1, 0xe13ef6f4, 0xe5ffeb43, 0xe8bccd9a, 0xec7dd02d,
   0x34867077, 0x30476dc0, 0x3d044b19, 0x39c556ae, 0x278206ab, 0x23431b1c, 0x2e003dc5, 0x2ac12072,
   0x128e9dcf, 0x164f8078, 0x1b0ca6a1, 0x1fcdbb16, 0x018aeb13, 0x054bf6a4, 0x0808d07d, 0x0cc9cdca,
   0x7897ab07, 0x7c56b6b0, 0x71159069, 0x75d48dde, 0x6b93dddb, 0x6f52c06c, 0x6211e6b5, 0x66d0fb02,
   0x5e9f46bf, 0x5a5e5b08, 0x571d7dd1, 0x53dc6066, 0x4d9b3063, 0x495a2dd4, 0x44190b0d, 0x40d816ba,
   0xaca5c697, 0xa864db20, 0xa527fdf9, 0xa1e6e04e, 0xbfa1b04b, 0xbb60adfc, 0xb6238b25, 0xb2e29692,
   0x8aad2b2f, 0x8e6c3698, 0x832f1041, 0x87ee0df6, 0x99a95df3, 0x9d684044, 0x902b669d, 0x94ea7b2a,
   0xe0b41de7, 0xe4750050, 0xe9362689, 0xedf73b3e, 0xf3b06b3b, 0xf771768c, 0xfa325055, 0xfef34de2,
   0xc6bcf05f, 0xc27dede8, 0xcf3ecb31, 0xcbffd686, 0xd5b88683, 0xd1799b34, 0xdc3abded, 0xd8fba05a,
   0x690ce0ee, 0x6dcdfd59, 0x608edb80, 0x644fc637, 0x7a089632, 0x7ec98b85, 0x738aad5c, 0x774bb0eb,
   0x4f040d56, 0x4bc510e1, 0x46863638, 0x42472b8f, 0x5c007b8a, 0x58c1663d, 0x558240e4, 0x51435d53,
   0x251d3b9e, 0x21dc2629, 0x2c9f00f0, 0x285e1d47, 0x36194d42, 0x32d850f5, 0x3f9b762c, 0x3b5a6b9b,
   0x0315d626, 0x07d4cb91, 0x0a97ed48, 0x0e56f0ff, 0x1011a0fa, 0x14d0bd4d, 0x19939b94, 0x1d528623,
   0xf12f560e, 0xf5ee4bb9, 0xf8ad6d60, 0xfc6c70d7, 0xe22b20d2, 0xe6ea3d65, 0xeba91bbc, 0xef68060b,
   0xd727bbb6, 0xd3e6a601, 0xdea580d8, 0xda649d6f, 0xc423cd6a, 0xc0e2d0dd, 0xcda1f604, 0xc960ebb3,
   0xbd3e8d7e, 0xb9ff90c9, 0xb4bcb610, 0xb07daba7, 0xae3afba2, 0xaafbe615, 0xa7b8c0cc, 0xa379dd7b,
   0x9b3660c6, 0x9ff77d71, 0x92b45ba8, 0x9675461f, 0x8832161a, 0x8cf30bad, 0x81b02d74, 0x857130c3,
   0x5d8a9099, 0x594b8d2e, 0x5408abf7, 0x50c9b640, 0x4e8ee645, 0x4a4ffbf2, 0x470cdd2b, 0x43cdc09c,
   0x7b827d21, 0x7f436096, 0x7200464f, 0x76c15bf8, 0x68860bfd, 0x6c47164a, 0x61043093, 0x65c52d24,
   0x119b4be9, 0x155a565e, 0x18197087, 0x1cd86d30, 0x029f3d35, 0x065e2082, 0x0b1d065b, 0x0fdc1bec,
   0x3793a651, 0x3352bbe6, 0x3e119d3f, 0x3ad08088, 0x2497d08d, 0x2056cd3a, 0x2d15ebe3, 0x29d4f654,
   0xc5a92679, 0xc1683bce, 0xcc2b1d17, 0xc8ea00a0, 0xd6ad50a5, 0xd26c4d12, 0xdf2f6bcb, 0xdbee767c,
   0xe3a1cbc1, 0xe760d676, 0xea23f0af, 0xeee2ed18, 0xf0a5bd1d, 0xf464a0aa, 0xf9278673, 0xfde69bc4,
   0x89b8fd09, 0x8d79e0be, 0x803ac667, 0x84fbdbd0, 0x9abc8bd5, 0x9e7d9662, 0x933eb0bb, 0x97ffad0c,
   0xafb010b1, 0xab710d06, 0xa6322bdf, 0xa2f33668, 0xbcb4666d, 0xb8757bda, 0xb5365d03, 0xb1f740b4]

/-- `struct Stm32crc`. -/
structure Stm32Crc where
  crc : BitVec 32
  idr : BitVec 8

namespace Stm32Crc

def R_CRC_DR_RESET : BitVec 32 := 0xffffffff
def R_CRC_MAX : ℕ := 3

/-- `update_crc`.  The index is below `256`. -/
def updateCrc (crc : BitVec 32) (byte : BitVec 8) : BitVec 32 :=
  (crctable.getD (((crc >>> 24) ^^^ byte.setWidth 32) &&& 0xff).toNat 0 ^^^
    (crc <<< 8).setWidth 64).setWidth 32

/-- The state as allocated. -/
def init : Stm32Crc := ⟨0, 0⟩

/-- `stm32_crc_read`. -/
def read (s : Stm32Crc) (addr size : ℕ) : BitVec 64 :=
  if size ≠ 4 then 0
  else if addr / 4 ≥ R_CRC_MAX then 0
  else
    match addr / 4 with
    | 0 => s.crc.setWidth 64
    | 1 => s.idr.setWidth 64
    | _ => 0

/-- A write to `DR`: the uppermost byte comes first. -/
def drWrite (s : Stm32Crc) (data : BitVec 64) : Stm32Crc :=
  let crc := updateCrc s.crc (((data >>> 24) &&& 0xff).setWidth 8)
  let crc := updateCrc crc (((data >>> 16) &&& 0xff).setWidth 8)
  let crc := updateCrc crc (((data >>> 8) &&& 0xff).setWidth 8)
  { s with crc := updateCrc crc ((data &&& 0xff).setWidth 8) }

/-- `stm32_crc_write`. -/
def write (s : Stm32Crc) (addr : ℕ) (data : BitVec 64) (size : ℕ) : Stm32Crc :=
  if size ≠ 4 then s
  else if addr / 4 ≥ R_CRC_MAX then s
  else
    match addr / 4 with
    | 0 => s.drWrite data
    | 1 => { s with idr := data.setWidth 8 }
    | _ => if data &&& 0x1 ≠ 0 then { s with crc := R_CRC_DR_RESET } else s

/-- `stm32_crc_reset`.  `IDR` stays. -/
def reset (s : Stm32Crc) : Stm32Crc := { s with crc := R_CRC_DR_RESET }

/-- What can happen to the unit. -/
inductive Op where
  | read (addr size : ℕ)
  | write (addr : ℕ) (data : BitVec 64) (size : ℕ)
  | reset

def step (s : Stm32Crc) : Op → Stm32Crc
  | .read _ _ => s
  | .write addr data size => s.write addr data size
  | .reset => s.reset

/-! ## The checksum -/

open Crc

/-- The polynomial of the CRC-32. -/
def poly : BitVec 32 := 0x04c11db7

/-- **The checksum of a list of words**, bit by bit. -/
def crc32 (words : List (BitVec 32)) : BitVec 32 :=
  (words.flatMap msbFirst).foldl (feed poly) 0xffffffff

/-- The entries of the table. -/
def entry (i : BitVec 8) : BitVec 32 := (crctable.getD i.toNat 0).setWidth 32

theorem crctable_eq : ∀ i, entry i = (shift poly)^[8] (atTop i) := by
  decide +kernel

theorem toNat_and_ff (x : BitVec 32) : (x &&& 0xff).toNat = (x.setWidth 8).toNat := by
  rw [BitVec.toNat_and, BitVec.toNat_setWidth]
  exact Nat.and_two_pow_sub_one_eq_mod x.toNat 8

/-- **An update feeds the eight bits of the byte.** -/
theorem updateCrc_eq (crc : BitVec 32) (byte : BitVec 8) :
    updateCrc crc byte = (msbFirst byte).foldl (feed poly) crc := by
  have hindex : ((crc >>> 24) ^^^ byte.setWidth 32).setWidth 8 = topByte crc ^^^ byte := by
    rw [BitVec.setWidth_xor, BitVec.setWidth_setWidth_of_le _ (by decide), BitVec.setWidth_eq]; rfl
  rw [foldl_feed_byte (by decide) crctable_eq, entry, updateCrc, toNat_and_ff, hindex,
    BitVec.setWidth_xor, Word.setWidth_setWidth_32]

theorem setWidth_ushiftRight {m n k : ℕ} (v : BitVec 32) (h : m + 8 ≤ n) :
    ((v >>> k).setWidth n >>> 8).setWidth m = (v >>> (k + 8)).setWidth m := by
  refine BitVec.eq_of_getLsbD_eq fun i hi => ?_
  simp only [BitVec.getLsbD_setWidth, BitVec.getLsbD_ushiftRight]
  simp [show 8 + i < n by omega, Nat.add_assoc]

/-- A word is its four bytes, the uppermost first. -/
theorem msbFirst_word (v : BitVec 32) : msbFirst v =
    msbFirst ((v >>> 24).setWidth 8) ++ msbFirst ((v >>> 16).setWidth 8) ++
      msbFirst ((v >>> 8).setWidth 8) ++ msbFirst (v.setWidth 8) := by
  rw [msbFirst_add (m := 24) (n := 8) v, msbFirst_add (m := 16) (n := 8) ((v >>> 8).setWidth 24),
    setWidth_ushiftRight v (by decide), msbFirst_add (m := 8) (n := 8) ((v >>> (8 + 8)).setWidth 16),
    setWidth_ushiftRight v (by decide), BitVec.setWidth_setWidth_of_le _ (by decide),
    BitVec.setWidth_setWidth_of_le _ (by decide)]

theorem setWidth_byte (data : BitVec 64) {k : ℕ} (hk : k ≤ 24) :
    ((data >>> k) &&& 0xff).setWidth 8 = (data.setWidth 32 >>> k).setWidth 8 := by
  refine BitVec.eq_of_getLsbD_eq fun i hi => ?_
  have hff : ∀ i < 8, (0xff#64).getLsbD i = true := by decide
  have hand := hff i hi
  simp only [BitVec.getLsbD_setWidth, BitVec.getLsbD_and, BitVec.getLsbD_ushiftRight]
  rw [show (0xff : BitVec 64).getLsbD i = true from hand]
  simp [show k + i < 32 by omega]

/-- **A write to `DR` feeds the bits of the word**, from bit 31 down to bit 0. -/
theorem drWrite_eq (s : Stm32Crc) (data : BitVec 64) : s.drWrite data =
    { s with crc := (msbFirst (data.setWidth 32)).foldl (feed poly) s.crc } := by
  have h0 := setWidth_byte data (show 0 ≤ 24 by decide)
  simp only [BitVec.ushiftRight_zero] at h0
  simp only [drWrite, updateCrc_eq, msbFirst_word (data.setWidth 32), List.foldl_append,
    setWidth_byte data (show 24 ≤ 24 by decide), setWidth_byte data (show 16 ≤ 24 by decide),
    setWidth_byte data (show 8 ≤ 24 by decide), h0]

/-! ## Accesses -/

/-- The word that an access adds to the checksum. -/
def Op.word : Op → Option (BitVec 32)
  | .write addr data size => if size = 4 ∧ addr / 4 = 0 then some (data.setWidth 32) else none
  | _ => none

/-- The access starts the checksum anew: a reset, or a write of bit 0 to `CR`. -/
def Op.restarts : Op → Bool
  | .write addr data size => size = 4 ∧ addr / 4 = 2 ∧ data.getLsbD 0
  | .read _ _ => false
  | .reset => true

theorem and_one_ne_zero (data : BitVec 64) : data &&& 0x1 ≠ 0 ↔ data.getLsbD 0 = true := by
  have hbit : Word.bitSet data 0 = data.getLsbD 0 := Word.bitSet_eq data (by decide)
  rw [← hbit, Word.bitSet, bne_iff_ne]; rfl

/-- **What an access does to the checksum.** -/
theorem step_crc (s : Stm32Crc) (o : Op) : (s.step o).crc =
    if o.restarts then 0xffffffff else (o.word.elim [] msbFirst).foldl (feed poly) s.crc := by
  cases o with
  | read addr size => rfl
  | reset => rfl
  | write addr data size =>
    simp only [step, write, Op.word, Op.restarts]
    by_cases hs : size = 4
    · simp only [hs, ne_eq, not_true_eq_false, if_false, true_and]
      by_cases h3 : addr / 4 ≥ R_CRC_MAX
      · rw [if_pos h3]
        have hlarge : 3 ≤ addr / 4 := h3
        simp [show ¬ addr / 4 = 2 by omega, show ¬ addr / 4 = 0 by omega]
      · rw [if_neg h3]
        have hsmall : addr / 4 < 3 := not_le.1 h3
        obtain h | h | h : addr / 4 = 0 ∨ addr / 4 = 1 ∨ addr / 4 = 2 := by omega
        all_goals rw [h]
        · simp [drWrite_eq]
        · simp
        · by_cases hb : data &&& 0x1 ≠ 0
          · rw [if_pos (decide_eq_true ⟨rfl, (and_one_ne_zero data).1 hb⟩)]
            exact congrArg crc (if_pos hb)
          · have hnot : ¬ decide (2 = 2 ∧ data.getLsbD 0 = true) = true := fun h' =>
              hb ((and_one_ne_zero data).2 (of_decide_eq_true h').2)
            rw [if_neg hnot]
            exact congrArg crc (if_neg hb)
    · simp [hs]

/-- The words added by accesses that do not start anew. -/
theorem foldl_step_crc {l : List Op} (h : ∀ o ∈ l, o.restarts = false) : ∀ s : Stm32Crc,
    (l.foldl step s).crc = ((l.filterMap Op.word).flatMap msbFirst).foldl (feed poly) s.crc := by
  induction l with
  | nil => exact fun s => rfl
  | cons o l ih =>
    intro s
    rw [List.forall_mem_cons] at h
    rw [List.foldl_cons, ih h.2, step_crc, h.1, if_neg (by decide)]
    cases hw : o.word with
    | none => rw [List.filterMap_cons_none hw]; rfl
    | some v => rw [List.filterMap_cons_some hw, List.flatMap_cons, List.foldl_append]; rfl

end Stm32Crc

open Stm32Crc

/-- **`DR` is the checksum of the words written since the last reset**, of the device
    or through `CR`, whatever else was accessed. -/
theorem dr_eq_crc32 (s : Stm32Crc) {o : Stm32Crc.Op} {l : List Stm32Crc.Op} (ho : o.restarts = true)
    (hl : ∀ o ∈ l, o.restarts = false) :
    ((o :: l).foldl Stm32Crc.step s).read 0x00 4 =
      (crc32 (l.filterMap Stm32Crc.Op.word)).setWidth 64 := by
  have hcrc : ((o :: l).foldl Stm32Crc.step s).crc = crc32 (l.filterMap Stm32Crc.Op.word) := by
    rw [List.foldl_cons, foldl_step_crc hl, step_crc, ho]; rfl
  exact congrArg (BitVec.setWidth 64) hcrc

/-- One word after a reset through `CR`, with an access to `IDR` in between. -/
theorem dr_eq_crc32_word : (([.write 0x08 1 4, .write 0x04 0x55 4, .write 0x00 0x12345678 4] :
      List Stm32Crc.Op).foldl Stm32Crc.step Stm32Crc.init).read 0x00 4 = 0xdf8a8a2b :=
  (dr_eq_crc32 Stm32Crc.init (o := .write 0x08 1 4) (by decide) (by decide)).trans (by decide +kernel)

end Bluepill

import JustWeather.Machinery.IteratedHash
import JustWeather.Machinery.Sines
import JustWeather.Server.HashMd5

/-!
# Server/HashMd5/Standard — the MD5 of the standard

MD5 as its definition has it (`Md5.hash`): its constants are read off the sines, its functions are
those of bits, and it is a hash of the whole message.  `hash_md5.c` has a table for the sines,
functions that save an operation, and a buffer for what does not fill a block; it is the same hash,
however the message is cut into pieces (`HashMd5.md5_standard`).
-/

open CLib

/-! ## The definition -/

namespace Md5

/-- Where `x` has a bit, that of `y`; else that of `z`. -/
def F (x y z : UInt32) : UInt32 := (x &&& y) ||| (~~~x &&& z)

/-- Where `z` has a bit, that of `x`; else that of `y`. -/
def G (x y z : UInt32) : UInt32 := (x &&& z) ||| (y &&& ~~~z)

def H (x y z : UInt32) : UInt32 := x ^^^ y ^^^ z

def I (x y z : UInt32) : UInt32 := y ^^^ (x ||| ~~~z)

/-- The function of an operation, which is that of its round. -/
def function (i : ℕ) : UInt32 → UInt32 → UInt32 → UInt32 :=
  [F, G, H, I].getD (i / 16) I

/-- The word of the block an operation uses. -/
def word (i : ℕ) : ℕ :=
  [i, 5 * i + 1, 3 * i + 5, 7 * i].getD (i / 16) 0 % 16

/-- How far an operation rotates. -/
def shift (i : ℕ) : UInt32 :=
  ([[7, 12, 17, 22], [5, 9, 14, 20], [4, 11, 16, 23], [6, 10, 15, 21]].getD (i / 16) []).getD
    (i % 4) 0

/-- The constant of an operation: the integer part of 2³² times a sine, less its sign. -/
noncomputable def constant (i : ℕ) : UInt32 :=
  UInt32.ofNat ⌊((2 ^ 32 : ℕ) : ℝ) * |Real.sin (i + 1 : ℕ)|⌋₊

/-- A rotation to the left. -/
def rotate (x s : UInt32) : UInt32 := (x <<< s) ||| (x >>> (32 - s))

/-- A number, the low byte first. -/
def littleEndian (bytes n : ℕ) : List Byte := (List.range bytes).map fun i => .ofNat (n / 256 ^ i)

/-- The number that is written so. -/
def ofLittleEndian (xs : List Byte) : ℕ := xs.foldr (fun b n => b.toNat + 256 * n) 0

/-- An operation, after which the words have moved on by one place. -/
noncomputable def operation (block : List Byte) (r : HashMd5.Registers) (i : ℕ) :
    HashMd5.Registers :=
  let x := UInt32.ofNat (ofLittleEndian ((block.drop (4 * word i)).take 4))
  ⟨r.d, r.b + rotate (r.a + function i r.b r.c r.d + x + constant i) (shift i), r.b, r.c⟩

/-- What a block does to the four words. -/
noncomputable def compress (r : HashMd5.Registers) (block : List Byte) : HashMd5.Registers :=
  let r' := (List.range 64).foldl (operation block) r
  ⟨r.a + r'.a, r.b + r'.b, r.c + r'.c, r.d + r'.d⟩

/-- A bit, zeros, and the number of bits in eight bytes. -/
def padding (size : ℕ) : List Byte :=
  0x80 :: (List.replicate ((119 - size % 64) % 64) (0 : Byte) ++ littleEndian 8 (8 * size))

theorem length_padding (size : ℕ) : (padding size).length = 1 + (119 - size % 64) % 64 + 8 := by
  simp only [padding, littleEndian, List.length_cons, List.length_append, List.length_replicate,
    List.length_map, List.length_range]
  omega

/-- **MD5.** -/
noncomputable def hash : IteratedHash Byte HashMd5.Registers (List Byte) where
  width := 64
  start := ⟨0x67452301, 0xefcdab89, 0x98badcfe, 0x10325476⟩
  compress := compress
  padding := padding
  finish r := [r.a, r.b, r.c, r.d].flatMap fun v => littleEndian 4 v.toNat
  width_pos := by decide
  width_dvd size := by
    rw [length_padding]
    omega

end Md5

namespace HashMd5

/-! ## The operations -/

/-- The operations of a block, in their order. -/
def steps : List Step := round1 ++ round2 ++ round3 ++ round4

theorem F_eq (x y z : UInt32) : F x y z = Md5.F x y z := by
  refine UInt32.toBitVec_inj.mp (BitVec.eq_of_getLsbD_eq fun i hi => ?_)
  simp only [F, Md5.F, UInt32.toBitVec_xor, UInt32.toBitVec_and, UInt32.toBitVec_or,
    UInt32.toBitVec_not, BitVec.getLsbD_xor, BitVec.getLsbD_and, BitVec.getLsbD_or,
    BitVec.getLsbD_not, hi, decide_true, Bool.true_and]
  cases x.toBitVec.getLsbD i <;> cases y.toBitVec.getLsbD i <;> cases z.toBitVec.getLsbD i <;> rfl

theorem G_eq (x y z : UInt32) : G x y z = Md5.G x y z := by
  refine UInt32.toBitVec_inj.mp (BitVec.eq_of_getLsbD_eq fun i hi => ?_)
  simp only [G, Md5.G, UInt32.toBitVec_xor, UInt32.toBitVec_and, UInt32.toBitVec_or,
    UInt32.toBitVec_not, BitVec.getLsbD_xor, BitVec.getLsbD_and, BitVec.getLsbD_or,
    BitVec.getLsbD_not, hi, decide_true, Bool.true_and]
  cases x.toBitVec.getLsbD i <;> cases y.toBitVec.getLsbD i <;> cases z.toBitVec.getLsbD i <;> rfl

theorem H2_eq (x y z : UInt32) : H2 x y z = Md5.H x y z := (UInt32.xor_assoc x y z).symm

/-- An operation that is not there. -/
def noStep : Step := ⟨F, 0, 0, 0⟩

theorem steps_eq : steps = (List.range 64).map fun i => steps.getD i noStep := rfl

/-- Each operation has the function of its round, in one form or another. -/
theorem f_eq {i : ℕ} (hi : i < 64) (x y z : UInt32) :
    (steps.getD i noStep).f x y z = Md5.function i x y z := by
  interval_cases i <;>
    first | exact F_eq x y z | exact G_eq x y z | exact H2_eq x y z | rfl

theorem word_eq : ∀ i < 64, (steps.getD i noStep).word = Md5.word i := by decide

theorem s_eq : ∀ i < 64, (steps.getD i noStep).s = Md5.shift i := by decide

/-- **The table is that of the sines.** -/
theorem constant_eq : ∀ i < 64, Md5.constant i = (steps.getD i noStep).t := by
  have hbelow : ∀ i < 64, Sines.Below (2 ^ 60) (2 ^ 32) ((i + 1) * (2 * 2 + 2))
      (Sines.turns (2 ^ 60) (622926147424044489, 970149993887725314) (i + 1)).2
      (steps.getD i noStep).t.toNat := by
    decide +kernel
  intro i hi
  rw [Md5.constant, Sines.floor_mul_abs_sin (by decide) Sines.near_exp_I (by omega) (hbelow i hi),
    UInt32.ofNat_toNat]

/-- What is shifted past the bits of a number is added to it. -/
theorem toNat_or_shiftLeft {x y k : UInt32} (hk : k.toNat < 32) (hx : x.toNat < 2 ^ k.toNat)
    (hy : 2 ^ k.toNat * y.toNat < 2 ^ 32) :
    (x ||| y <<< k).toNat = x.toNat + 2 ^ k.toNat * y.toNat := by
  rw [UInt32.toNat_or, UInt32.toNat_shiftLeft, Nat.mod_eq_of_lt hk, Nat.shiftLeft_eq,
    Nat.mul_comm, Nat.mod_eq_of_lt hy, Nat.or_comm, ← Nat.two_pow_add_eq_or_of_lt hx, Nat.add_comm]

/-- A word is four bytes, the low one first. -/
theorem get_eq {block : List Byte} {n : ℕ} (h : n * 4 + 4 ≤ block.length) :
    get block n = UInt32.ofNat (Md5.ofLittleEndian ((block.drop (4 * n)).take 4)) := by
  have hsplit : ∃ b₀ b₁ b₂ b₃ rest, block.drop (4 * n) = b₀ :: b₁ :: b₂ :: b₃ :: rest := by
    have hlength : 4 ≤ (block.drop (4 * n)).length := by
      rw [List.length_drop]
      omega
    match block.drop (4 * n), hlength with
    | b₀ :: b₁ :: b₂ :: b₃ :: rest, _ => exact ⟨b₀, b₁, b₂, b₃, rest, rfl⟩
  obtain ⟨b₀, b₁, b₂, b₃, rest, hblock⟩ := hsplit
  have hbyte : ∀ k b, (block.drop (4 * n))[k]? = some b → block.getD (n * 4 + k) 0 = b := by
    intro k b hb
    rw [List.getElem?_drop, Nat.mul_comm] at hb
    rw [List.getD_eq_getElem?_getD, hb, Option.getD_some]
  have h₀ : b₀.toUInt32.toNat < 2 ^ 8 := b₀.toNat_lt
  have h₁ : b₁.toUInt32.toNat < 2 ^ 8 := b₁.toNat_lt
  have h₂ : b₂.toUInt32.toNat < 2 ^ 8 := b₂.toNat_lt
  have h₃ : b₃.toUInt32.toNat < 2 ^ 8 := b₃.toNat_lt
  have hnumber : Md5.ofLittleEndian [b₀, b₁, b₂, b₃] = b₀.toUInt32.toNat
      + 2 ^ 8 * b₁.toUInt32.toNat + 2 ^ 16 * b₂.toUInt32.toNat + 2 ^ 24 * b₃.toUInt32.toNat := by
    simp only [Md5.ofLittleEndian, List.foldr_cons, List.foldr_nil, UInt8.toNat_toUInt32]
    omega
  have hlow : block.getD (n * 4) 0 = b₀ := hbyte 0 b₀ (by rw [hblock]; rfl)
  rw [get, hlow, hbyte 1 b₁ (by rw [hblock]; rfl),
    hbyte 2 b₂ (by rw [hblock]; rfl), hbyte 3 b₃ (by rw [hblock]; rfl), hblock, List.take_succ_cons,
    List.take_succ_cons, List.take_succ_cons, List.take_succ_cons, List.take_zero, hnumber]
  refine UInt32.toNat_inj.mp ?_
  have e₁ : (b₀.toUInt32 ||| b₁.toUInt32 <<< 8).toNat
      = b₀.toUInt32.toNat + 2 ^ 8 * b₁.toUInt32.toNat :=
    toNat_or_shiftLeft (k := 8) (by decide) h₀ (by simp only [UInt32.reduceToNat]; omega)
  have e₂ : (b₀.toUInt32 ||| b₁.toUInt32 <<< 8 ||| b₂.toUInt32 <<< 16).toNat
      = b₀.toUInt32.toNat + 2 ^ 8 * b₁.toUInt32.toNat + 2 ^ 16 * b₂.toUInt32.toNat := by
    rw [← e₁]
    exact toNat_or_shiftLeft (k := 16) (by decide)
      (by rw [e₁]; simp only [UInt32.reduceToNat]; omega)
      (by simp only [UInt32.reduceToNat]; omega)
  rw [toNat_or_shiftLeft (k := 24) (by decide) (by rw [e₂]; simp only [UInt32.reduceToNat]; omega)
    (by simp only [UInt32.reduceToNat]; omega), e₂, UInt32.toNat_ofNat',
    Nat.mod_eq_of_lt (by omega)]
  rfl

theorem wordBytes_eq (v : UInt32) : wordBytes v = Md5.littleEndian 4 v.toNat := by
  have hbyte : ∀ k : UInt32, k.toNat < 32 →
      (v >>> k).toUInt8 = UInt8.ofNat (v.toNat / 2 ^ k.toNat) := by
    intro k hk
    refine UInt8.toNat_inj.mp ?_
    rw [UInt32.toNat_toUInt8, UInt32.toNat_shiftRight, Nat.mod_eq_of_lt hk,
      Nat.shiftRight_eq_div_pow, UInt8.toNat_ofNat']
  have h₀ : v.toUInt8 = UInt8.ofNat v.toNat :=
    UInt8.toNat_inj.mp (by rw [UInt32.toNat_toUInt8, UInt8.toNat_ofNat'])
  rw [wordBytes, hbyte 8 (by decide), hbyte 16 (by decide), hbyte 24 (by decide), h₀]
  simp [Md5.littleEndian, List.range_succ]

theorem padding_eq (size : ℕ) : padding size = Md5.padding size := by
  rw [padding, Md5.padding, wordBytes_eq, wordBytes_eq]
  congr 2
  simp only [Md5.littleEndian, List.range_succ, List.range_zero, List.map_cons,
    List.map_nil, List.nil_append, List.cons_append, UInt32.toNat_ofNat', Nat.shiftRight_eq_div_pow,
    List.cons.injEq, and_true]
  refine ⟨?_, ?_, ?_, ?_, ?_, ?_, ?_, ?_⟩ <;> refine UInt8.toNat_inj.mp ?_ <;>
    rw [UInt8.toNat_ofNat', UInt8.toNat_ofNat'] <;> omega

/-- **A `STEP` is an operation.** -/
theorem step_eq {block : List Byte} (h : 64 ≤ block.length) (r : Registers) {i : ℕ} (hi : i < 64) :
    step block r (steps.getD i noStep) = Md5.operation block r i := by
  have hword : Md5.word i < 16 := Nat.mod_lt _ (by decide)
  have hones : ∀ x : UInt32, x &&& 0xffffffff = x := fun _ => UInt32.and_neg_one
  have hsum : ∀ a f x t : UInt32, a + (f + x + t) = a + f + x + t := by
    intro a f x t
    rw [← UInt32.add_assoc, ← UInt32.add_assoc]
  rw [step, Md5.operation, word_eq i hi, s_eq i hi, f_eq hi, ← constant_eq i hi,
    get_eq (by omega), hones, hsum, Md5.rotate, UInt32.add_comm _ r.b]

/-- **A turn of the loop of `body` is the compression of a block.** -/
theorem transform_eq {ptr : List Byte} (h : 64 ≤ ptr.length) (r : Registers) :
    transform r ptr = Md5.compress r (ptr.take 64) := by
  have hblock : (ptr.take 64).length = 64 := List.length_take_of_le h
  have hfold : steps.foldl (step (ptr.take 64)) r
      = (List.range 64).foldl (Md5.operation (ptr.take 64)) r := by
    rw [steps_eq, List.foldl_map]
    exact List.foldl_ext _ _ _ fun r i hi => step_eq hblock.ge r (List.mem_range.mp hi)
  have htransform : transform r ptr = transform r (ptr.take 64) := by
    have := transform_append hblock.ge r (ptr.drop 64)
    rwa [List.take_append_drop] at this
  rw [htransform, transform, ← steps, hfold, Md5.compress]
  simp only [UInt32.add_comm]

theorem blocks_eq {ptr : List Byte} {n : ℕ} (h : n * 64 ≤ ptr.length) (r : Registers) :
    blocks r ptr n = Md5.hash.absorb r ptr n := by
  induction n generalizing r ptr with
  | zero => rfl
  | succ n ih =>
    rw [blocks, IteratedHash.absorb, transform_eq (by omega),
      ih (by rw [List.length_drop]; omega)]
    rfl

theorem digest_eq (r : Registers) : digest r = Md5.hash.finish r := by
  simp [digest, Md5.hash, wordBytes_eq]

/-! ## The buffer -/

section Buffer

variable {ctx ctx' : Md5Ctx} {p : Md5.hash.Partial} {data buffer : List Byte}

/-- What a context has of its message: the state of the whole blocks, and the rest at the start of
the buffer. -/
structure Buffers (ctx : Md5Ctx) (p : Md5.hash.Partial) : Prop where
  registers : ctx.toRegisters = p.state
  buffer : p.waiting <+: ctx.buffer
  length_buffer : ctx.buffer.length = 64

theorem Buffers.count (h : Buffers ctx p) (lo hi : UInt32) :
    Buffers { ctx with lo := lo, hi := hi } p := ⟨h.registers, h.buffer, h.length_buffer⟩

/-- A context counts the bytes of its message, modulo 2²⁹ and above. -/
structure Counts (ctx : Md5Ctx) (size : ℕ) : Prop where
  lo : ctx.lo.toNat = size % 2 ^ 29
  hi : ctx.hi = UInt32.ofNat (size / 2 ^ 29)

theorem Counts.used (h : Counts ctx p.size) : (ctx.lo &&& 0x3f).toNat = p.waiting.length := by
  have h6 : (0x3f : UInt32).toNat = 2 ^ 6 - 1 := rfl
  have hlength : p.waiting.length = p.size % 64 := p.length_waiting
  rw [UInt32.toNat_and, h6, Nat.and_two_pow_sub_one_eq_mod, h.lo, hlength]
  omega

/-- **The bytes are counted**, and what does not fit `lo` is carried. -/
theorem Counts.add {size : ℕ} (h : Counts ctx size) (n : ℕ)
    (hlo : ctx'.lo = UInt32.ofNat (ctx.lo.toNat + n) &&& 0x1fffffff)
    (hhi : ctx'.hi = (if ctx'.lo < ctx.lo then ctx.hi + 1 else ctx.hi) + UInt32.ofNat (n >>> 29)) :
    Counts ctx' (size + n) := by
  have h29 : (0x1fffffff : UInt32).toNat = 2 ^ 29 - 1 := rfl
  have hlo' : ctx'.lo.toNat = (size + n) % 2 ^ 29 := by
    rw [hlo, UInt32.toNat_and, h29, Nat.and_two_pow_sub_one_eq_mod, UInt32.toNat_ofNat', h.lo]
    omega
  refine ⟨hlo', ?_⟩
  rw [hhi, h.hi]
  refine UInt32.toNat_inj.mp ?_
  split
  · rename_i hcarry
    rw [UInt32.lt_iff_toNat_lt, hlo', h.lo] at hcarry
    simp only [UInt32.toNat_add, UInt32.toNat_ofNat', Nat.shiftRight_eq_div_pow, UInt32.toNat_one]
    omega
  · rename_i hcarry
    rw [UInt32.lt_iff_toNat_lt, hlo', h.lo] at hcarry
    simp only [UInt32.toNat_add, UInt32.toNat_ofNat', Nat.shiftRight_eq_div_pow]
    omega

@[simp] theorem updateBlocks_lo (ctx : Md5Ctx) (data : List Byte) :
    (updateBlocks ctx data).lo = ctx.lo := by
  rw [updateBlocks]
  split <;> rfl

@[simp] theorem updateBlocks_hi (ctx : Md5Ctx) (data : List Byte) :
    (updateBlocks ctx data).hi = ctx.hi := by
  rw [updateBlocks]
  split <;> rfl

/-- The rest of the bytes, once no bytes wait. -/
theorem Buffers.updateBlocks (h : Buffers ctx p) (hwaiting : p.waiting = []) (data : List Byte) :
    Buffers (updateBlocks ctx data) (p.feed data) := by
  have hrest : (data.drop (data.length / 64 * 64)).length < 64 := by
    rw [List.length_drop]
    omega
  have hstate : (p.feed data).state = blocks ctx.toRegisters data (data.length / 64) := by
    rw [blocks_eq (Nat.div_mul_le_self _ _), h.registers]
    simp only [IteratedHash.Partial.feed, hwaiting, List.nil_append]
    rfl
  have hrests : (p.feed data).waiting = data.drop (data.length / 64 * 64) := by
    simp only [IteratedHash.Partial.feed, hwaiting, List.nil_append]
    rfl
  have hover : overwrite ctx.buffer 0 (data.drop (data.length / 64 * 64))
      = data.drop (data.length / 64 * 64)
        ++ ctx.buffer.drop (data.drop (data.length / 64 * 64)).length := by
    rw [overwrite, List.take_zero, List.nil_append, Nat.zero_add]
  have hlength : (overwrite ctx.buffer 0 (data.drop (data.length / 64 * 64))).length = 64 := by
    rw [length_overwrite (by rw [h.length_buffer]; omega), h.length_buffer]
  rw [HashMd5.updateBlocks]
  split
  · refine ⟨?_, ?_, hlength⟩
    · rw [hstate]
      simp only [body, Nat.mul_div_left _ (show 0 < 64 by decide)]
    · rw [hrests]
      exact ⟨_, hover.symm⟩
  · rename_i hsmall
    have hdiv : data.length / 64 = 0 := Nat.div_eq_of_lt (Nat.not_le.mp hsmall)
    rw [hdiv, Nat.zero_mul, List.drop_zero] at hrests hover hlength
    refine ⟨?_, ?_, hlength⟩
    · rw [hstate, hdiv]
      rfl
    · rw [hrests]
      exact ⟨_, hover.symm⟩

/-- What a context has of its message, and how long that is. -/
structure Holds (ctx : Md5Ctx) (p : Md5.hash.Partial) : Prop where
  buffers : Buffers ctx p
  counts : Counts ctx p.size

theorem holds_md5Init (hbuffer : buffer.length = 64) :
    Holds (md5Init buffer) (.fresh Md5.hash) :=
  ⟨⟨rfl, List.nil_prefix, hbuffer⟩, ⟨rfl, rfl⟩⟩

/-- Bytes that fit the block wait with the others. -/
theorem Buffers.wait (h : Buffers ctx p) (hfit : p.waiting.length + data.length < 64) :
    Buffers { ctx with buffer := overwrite ctx.buffer p.waiting.length data } (p.feed data) := by
  obtain ⟨hstate, hwaiting⟩ := IteratedHash.Partial.feed_of_lt (h := Md5.hash) hfit
  obtain ⟨rest, hrest⟩ := h.buffer
  refine ⟨h.registers.trans hstate.symm, ?_, ?_⟩
  · rw [hwaiting, ← hrest, overwrite_append rfl]
    exact List.prefix_append _ _
  · exact (length_overwrite (by rw [h.length_buffer]; omega)).trans h.length_buffer

/-- **Bytes that fill the block** have it transformed. -/
theorem Buffers.fill (h : Buffers ctx p) (hfill : p.waiting.length + data.length = 64) :
    Buffers (body { ctx with buffer := overwrite ctx.buffer p.waiting.length data }
        (overwrite ctx.buffer p.waiting.length data) 64) (p.feed data) ∧
      (p.feed data).waiting = [] := by
  obtain ⟨rest, hrest⟩ := h.buffer
  have hlength : (p.waiting ++ data).length = 64 := by rw [List.length_append, hfill]
  have hnone : rest.drop data.length = [] := by
    have hsize := h.length_buffer
    rw [← hrest, List.length_append] at hsize
    exact List.drop_of_length_le (by omega)
  have hblock : overwrite ctx.buffer p.waiting.length data = p.waiting ++ data := by
    rw [← hrest, overwrite_append rfl, hnone, List.append_nil]
  have hone : (p.waiting ++ data).length / Md5.hash.width = 1 := by
    rw [hlength]
    rfl
  have hwaiting : (p.feed data).waiting = [] := by
    simp only [IteratedHash.Partial.feed, hone]
    exact List.drop_of_length_le hlength.le
  refine ⟨⟨?_, hwaiting ▸ List.nil_prefix, ?_⟩, hwaiting⟩
  · have hstate : (p.feed data).state = Md5.hash.absorb p.state (p.waiting ++ data) 1 := by
      simp only [IteratedHash.Partial.feed, hone]
    rw [hstate, ← blocks_eq (by omega), hblock, ← h.registers]
    rfl
  · exact hblock ▸ hlength

/-- **`MD5_Update` takes a piece.** -/
theorem Holds.md5Update (h : Holds ctx p) (data : List Byte) :
    Holds (md5Update ctx data) (p.feed data) := by
  obtain ⟨hbuffers, hcounts⟩ := h
  have hshort : p.waiting.length < 64 :=
    p.length_waiting.trans_lt (Nat.mod_lt _ Md5.hash.width_pos)
  rw [HashMd5.md5Update]
  simp only [hcounts.used]
  set lo := UInt32.ofNat (ctx.lo.toNat + data.length) &&& 0x1fffffff
  set hi := (if lo < ctx.lo then ctx.hi + 1 else ctx.hi) + UInt32.ofNat (data.length >>> 29)
  have hcounted := hbuffers.count lo hi
  split
  · -- nothing waits
    rename_i hnone
    exact ⟨hcounted.updateBlocks (List.length_eq_zero_iff.mp hnone) data,
      hcounts.add _ (updateBlocks_lo _ _) ((updateBlocks_hi _ _).trans (by rw [updateBlocks_lo]))⟩
  · split
    · rename_i hfit
      exact ⟨hcounted.wait (by omega : p.waiting.length + data.length < 64),
        hcounts.add _ rfl rfl⟩
    · -- what waits is filled up to a block, and the rest follows
      rename_i hfill
      have hlength : (data.take (64 - p.waiting.length)).length = 64 - p.waiting.length :=
        List.length_take_of_le (by omega)
      obtain ⟨hfilled, hnone⟩ := hcounted.fill (by rw [hlength]; omega :
        p.waiting.length + (data.take (64 - p.waiting.length)).length = 64)
      have hrest := hfilled.updateBlocks hnone (data.drop (64 - p.waiting.length))
      rw [IteratedHash.Partial.feed_feed, List.take_append_drop] at hrest
      exact ⟨hrest, hcounts.add _ (updateBlocks_lo _ _)
        ((updateBlocks_hi _ _).trans (by rw [updateBlocks_lo]; rfl))⟩

/-- **`MD5_Final` closes the message.** -/
theorem Holds.md5Final (h : Holds ctx p) : md5Final ctx = p.close := by
  obtain ⟨hbuffers, hcounts⟩ := h
  obtain ⟨rest, hrest⟩ := hbuffers.buffer
  have hwaiting : p.waiting.length = p.size % 64 := p.length_waiting
  have hlo : ctx.lo <<< 3 = UInt32.ofNat (p.size * 8) := by
    have h3 : (3 : UInt32).toNat % 32 = 3 := rfl
    refine UInt32.toNat_inj.mp ?_
    rw [UInt32.toNat_shiftLeft, h3, hcounts.lo, UInt32.toNat_ofNat', Nat.shiftLeft_eq]
    omega
  have hhi : ctx.hi = UInt32.ofNat (p.size >>> 29) := by
    rw [hcounts.hi, Nat.shiftRight_eq_div_pow]
  have hlast : p.waiting ++ (0x80 : Byte) :: (List.replicate ((119 - p.waiting.length) % 64)
      (0 : Byte) ++ (wordBytes (ctx.lo <<< 3) ++ wordBytes ctx.hi))
      = p.waiting ++ Md5.hash.padding p.size := by
    rw [hlo, hhi, hwaiting]
    exact congrArg (p.waiting ++ ·) (padding_eq p.size)
  have hlength : (p.waiting ++ Md5.hash.padding p.size).length
      = (if p.waiting.length < 56 then 1 else 2) * 64 := by
    have hpadding : (Md5.hash.padding p.size).length = _ := Md5.length_padding p.size
    rw [List.length_append, hpadding, ← hwaiting]
    split <;> omega
  rw [md5Final_eq hrest.symm hbuffers.length_buffer hcounts.used (by omega), hlast,
    blocks_eq hlength.ge, digest_eq, hbuffers.registers, IteratedHash.Partial.close]
  have hcount : (p.waiting ++ Md5.hash.padding p.size).length / Md5.hash.width
      = if p.waiting.length < 56 then 1 else 2 := by
    rw [hlength]
    exact Nat.mul_div_cancel _ Md5.hash.width_pos
  rw [hcount]

/-- **`MD5_Update` takes piece after piece.** -/
theorem Holds.foldl (h : Holds ctx p) (pieces : List (List Byte)) :
    Holds (pieces.foldl HashMd5.md5Update ctx) (pieces.foldl .feed p) := by
  induction pieces generalizing ctx p with
  | nil => exact h
  | cons piece pieces ih => exact ih (h.md5Update piece)

end Buffer

/-! ## The hash -/

/-- **`hash_md5.c` is MD5**: whatever the pieces in which `MD5_Update` is given a message, and
whatever the buffer held before, `MD5_Final` writes the hash of the message; and what
`hash_md5_string` leaves in a block that is long enough, whatever that held, is its text. -/
theorem md5_standard {buffer output : List Byte} (hbuffer : buffer.length = 64)
    (houtput : 33 ≤ output.length) (pieces : List (List Byte)) :
    md5Final (pieces.foldl md5Update (md5Init buffer)) = Md5.hash.digest pieces.flatten ∧
      (hashMd5String pieces.flatten output).map cstr
        = some (hexString (Md5.hash.digest pieces.flatten)) := by
  have hdigest : ∀ {buffer : List Byte}, buffer.length = 64 → ∀ pieces : List (List Byte),
      md5Final (pieces.foldl md5Update (md5Init buffer)) = Md5.hash.digest pieces.flatten := by
    intro buffer hbuffer pieces
    rw [((holds_md5Init hbuffer).foldl pieces).md5Final, IteratedHash.Partial.close_foldl_feed]
  refine ⟨hdigest hbuffer pieces, ?_⟩
  have hone := hdigest (List.length_replicate (a := (0 : Byte))) [pieces.flatten]
  rw [List.flatten_singleton] at hone
  rw [cstr_hashMd5String houtput, hashMd5Binary, ← hone]
  rfl

/-- The same letters in two pieces. -/
theorem md5_standard_pieces :
    md5Final ([bytes "wea", bytes "ther"].foldl md5Update (md5Init (List.replicate 64 0)))
        = Md5.hash.digest (bytes "weather") ∧
      (hashMd5String (bytes "weather") (List.replicate 33 1)).map cstr
        = some (hexString (Md5.hash.digest (bytes "weather"))) :=
  md5_standard (List.length_replicate ..) (by decide) [bytes "wea", bytes "ther"]

end HashMd5

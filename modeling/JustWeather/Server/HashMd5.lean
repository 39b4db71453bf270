import JustWeather.CLib.Scanf
import Mathlib.Data.List.GetD

/-!
# Server/HashMd5 — the MD5 of a key

`hash_md5.c`: a context takes blocks of 64 bytes, what does not fill one waits in its buffer, and
the last ones are filled up with the length, so the digest is that of the message and its padding,
block for block (`md5Final_md5Update`).  It is written with two hexadecimal digits for each byte, so
the text says which digest it was (`hexString_injective`).
-/

namespace HashMd5

open CLib

/-! ## The transformation of a block -/

/-- The basic functions of MD5. -/
def F (x y z : UInt32) : UInt32 := z ^^^ (x &&& (y ^^^ z))

def G (x y z : UInt32) : UInt32 := y ^^^ (z &&& (x ^^^ y))

def H (x y z : UInt32) : UInt32 := (x ^^^ y) ^^^ z

def H2 (x y z : UInt32) : UInt32 := x ^^^ (y ^^^ z)

def I (x y z : UInt32) : UInt32 := y ^^^ (x ||| ~~~ z)

/-- The four words a block transforms. -/
structure Registers where
  a : UInt32
  b : UInt32
  c : UInt32
  d : UInt32
  deriving DecidableEq

/-- What one `STEP` uses: its function, the word of the block, the constant and the shift. -/
structure Step where
  f : UInt32 → UInt32 → UInt32 → UInt32
  word : ℕ
  t : UInt32
  s : UInt32

/-- `GET(n)`: a word of the block. -/
def get (ptr : List Byte) (n : ℕ) : UInt32 :=
  (ptr.getD (n * 4) 0).toUInt32 ||| (ptr.getD (n * 4 + 1) 0).toUInt32 <<< 8 |||
    (ptr.getD (n * 4 + 2) 0).toUInt32 <<< 16 ||| (ptr.getD (n * 4 + 3) 0).toUInt32 <<< 24

/-- `STEP`, of which the next one is given the four words in the order `d`, `a`, `b`, `c`. -/
def step (ptr : List Byte) (r : Registers) (i : Step) : Registers :=
  let a := r.a + (i.f r.b r.c r.d + get ptr i.word + i.t)
  let a := (a <<< i.s) ||| ((a &&& 0xffffffff) >>> (32 - i.s))
  let a := a + r.b
  ⟨r.d, a, r.b, r.c⟩

/-- `Round 1`. -/
def round1 : List Step :=
  [ ⟨F, 0, 0xd76aa478, 7⟩, ⟨F, 1, 0xe8c7b756, 12⟩,
    ⟨F, 2, 0x242070db, 17⟩, ⟨F, 3, 0xc1bdceee, 22⟩,
    ⟨F, 4, 0xf57c0faf, 7⟩, ⟨F, 5, 0x4787c62a, 12⟩,
    ⟨F, 6, 0xa8304613, 17⟩, ⟨F, 7, 0xfd469501, 22⟩,
    ⟨F, 8, 0x698098d8, 7⟩, ⟨F, 9, 0x8b44f7af, 12⟩,
    ⟨F, 10, 0xffff5bb1, 17⟩, ⟨F, 11, 0x895cd7be, 22⟩,
    ⟨F, 12, 0x6b901122, 7⟩, ⟨F, 13, 0xfd987193, 12⟩,
    ⟨F, 14, 0xa679438e, 17⟩, ⟨F, 15, 0x49b40821, 22⟩ ]

/-- `Round 2`. -/
def round2 : List Step :=
  [ ⟨G, 1, 0xf61e2562, 5⟩, ⟨G, 6, 0xc040b340, 9⟩,
    ⟨G, 11, 0x265e5a51, 14⟩, ⟨G, 0, 0xe9b6c7aa, 20⟩,
    ⟨G, 5, 0xd62f105d, 5⟩, ⟨G, 10, 0x02441453, 9⟩,
    ⟨G, 15, 0xd8a1e681, 14⟩, ⟨G, 4, 0xe7d3fbc8, 20⟩,
    ⟨G, 9, 0x21e1cde6, 5⟩, ⟨G, 14, 0xc33707d6, 9⟩,
    ⟨G, 3, 0xf4d50d87, 14⟩, ⟨G, 8, 0x455a14ed, 20⟩,
    ⟨G, 13, 0xa9e3e905, 5⟩, ⟨G, 2, 0xfcefa3f8, 9⟩,
    ⟨G, 7, 0x676f02d9, 14⟩, ⟨G, 12, 0x8d2a4c8a, 20⟩ ]

/-- `Round 3`. -/
def round3 : List Step :=
  [ ⟨H, 5, 0xfffa3942, 4⟩, ⟨H2, 8, 0x8771f681, 11⟩,
    ⟨H, 11, 0x6d9d6122, 16⟩, ⟨H2, 14, 0xfde5380c, 23⟩,
    ⟨H, 1, 0xa4beea44, 4⟩, ⟨H2, 4, 0x4bdecfa9, 11⟩,
    ⟨H, 7, 0xf6bb4b60, 16⟩, ⟨H2, 10, 0xbebfbc70, 23⟩,
    ⟨H, 13, 0x289b7ec6, 4⟩, ⟨H2, 0, 0xeaa127fa, 11⟩,
    ⟨H, 3, 0xd4ef3085, 16⟩, ⟨H2, 6, 0x04881d05, 23⟩,
    ⟨H, 9, 0xd9d4d039, 4⟩, ⟨H2, 12, 0xe6db99e5, 11⟩,
    ⟨H, 15, 0x1fa27cf8, 16⟩, ⟨H2, 2, 0xc4ac5665, 23⟩ ]

/-- `Round 4`. -/
def round4 : List Step :=
  [ ⟨I, 0, 0xf4292244, 6⟩, ⟨I, 7, 0x432aff97, 10⟩,
    ⟨I, 14, 0xab9423a7, 15⟩, ⟨I, 5, 0xfc93a039, 21⟩,
    ⟨I, 12, 0x655b59c3, 6⟩, ⟨I, 3, 0x8f0ccc92, 10⟩,
    ⟨I, 10, 0xffeff47d, 15⟩, ⟨I, 1, 0x85845dd1, 21⟩,
    ⟨I, 8, 0x6fa87e4f, 6⟩, ⟨I, 15, 0xfe2ce6e0, 10⟩,
    ⟨I, 6, 0xa3014314, 15⟩, ⟨I, 13, 0x4e0811a1, 21⟩,
    ⟨I, 4, 0xf7537e82, 6⟩, ⟨I, 11, 0xbd3af235, 10⟩,
    ⟨I, 2, 0x2ad7d2bb, 15⟩, ⟨I, 9, 0xeb86d391, 21⟩ ]

/-- One turn of the loop of `body`. -/
def transform (saved : Registers) (ptr : List Byte) : Registers :=
  let r := (round1 ++ round2 ++ round3 ++ round4).foldl (step ptr) saved
  ⟨r.a + saved.a, r.b + saved.b, r.c + saved.c, r.d + saved.d⟩

/-- The loop of `body`, over that many blocks. -/
def blocks (r : Registers) (ptr : List Byte) : ℕ → Registers
  | 0 => r
  | n + 1 => blocks (transform r ptr) (ptr.drop 64) n

/-! ## The context -/

/-- `memcpy` or `memset` into a block, from its byte `i` on. -/
def overwrite (block : List Byte) (i : ℕ) (text : List Byte) : List Byte :=
  block.take i ++ text ++ block.drop (i + text.length)

/-- `MD5_CTX`.  The words of `block` are read in place. -/
structure Md5Ctx extends Registers where
  lo : UInt32
  hi : UInt32
  buffer : List Byte

/-- `body`, of a `size` that is a multiple of 64 and not 0. -/
def body (ctx : Md5Ctx) (data : List Byte) (size : ℕ) : Md5Ctx :=
  { ctx with toRegisters := blocks ctx.toRegisters data (size / 64) }

/-- The words every digest starts from. -/
def initial : Registers := ⟨0x67452301, 0xefcdab89, 0x98badcfe, 0x10325476⟩

/-- `MD5_Init`; `buffer` is what its bytes happen to be. -/
def md5Init (buffer : List Byte) : Md5Ctx := ⟨initial, 0, 0, buffer⟩

/-- The part of `MD5_Update` after the buffer is empty. -/
def updateBlocks (ctx : Md5Ctx) (data : List Byte) : Md5Ctx :=
  let size := data.length
  if 64 ≤ size then
    let ctx := body ctx data (size / 64 * 64)
    { ctx with buffer := overwrite ctx.buffer 0 (data.drop (size / 64 * 64)) }
  else { ctx with buffer := overwrite ctx.buffer 0 data }

/-- `MD5_Update`. -/
def md5Update (ctx : Md5Ctx) (data : List Byte) : Md5Ctx :=
  let size := data.length
  let savedLo := ctx.lo
  let lo := UInt32.ofNat (savedLo.toNat + size) &&& 0x1fffffff
  let hi := if lo < savedLo then ctx.hi + 1 else ctx.hi
  let ctx := { ctx with lo := lo, hi := hi + UInt32.ofNat (size >>> 29) }
  let used := (savedLo &&& 0x3f).toNat
  if used = 0 then updateBlocks ctx data
  else
    let available := 64 - used
    if size < available then { ctx with buffer := overwrite ctx.buffer used data }
    else
      let ctx := { ctx with buffer := overwrite ctx.buffer used (data.take available) }
      updateBlocks (body ctx ctx.buffer 64) (data.drop available)

/-- The bytes of a word. -/
def wordBytes (v : UInt32) : List Byte :=
  [v.toUInt8, (v >>> 8).toUInt8, (v >>> 16).toUInt8, (v >>> 24).toUInt8]

/-- `result`. -/
def digest (r : Registers) : List Byte :=
  wordBytes r.a ++ wordBytes r.b ++ wordBytes r.c ++ wordBytes r.d

/-- The part of `MD5_Final` after there is room for the length. -/
def finish (ctx : Md5Ctx) (used : ℕ) : List Byte :=
  let available := 64 - used
  let buffer := overwrite ctx.buffer used (List.replicate (available - 8) 0)
  let buffer := overwrite buffer 56 (wordBytes (ctx.lo <<< 3) ++ wordBytes ctx.hi)
  digest (body ctx buffer 64).toRegisters

/-- `MD5_Final`. -/
def md5Final (ctx : Md5Ctx) : List Byte :=
  let used := (ctx.lo &&& 0x3f).toNat
  let ctx := { ctx with buffer := overwrite ctx.buffer used [0x80] }
  let used := used + 1
  let available := 64 - used
  if available < 8 then
    let ctx := { ctx with buffer := overwrite ctx.buffer used (List.replicate available 0) }
    finish (body ctx ctx.buffer 64) 0
  else finish ctx used

/-! ## The wrappers -/

/-- `hash_md5_binary`. -/
def hashMd5Binary (data : List Byte) : List Byte :=
  md5Final (md5Update (md5Init (List.replicate 64 0)) data)

/-- A digit of `%x`. -/
def hexDigit (n : Byte) : Byte := if n < 10 then 48 + n else 87 + n

/-- `%02x` of an `unsigned char`. -/
def hex (b : Byte) : List Byte := [hexDigit (b / 16), hexDigit (b % 16)]

/-- The loop of `hash_md5_binary_to_string`, from the byte `i` of the digest on. -/
def hexLoop : List Byte → ℕ → List Byte → List Byte
  | [], _, output => output
  | b :: binary, i, output =>
    hexLoop binary (i + 1) (overwrite output (i * 2) ((snprintf 3 (hex b)).1 ++ [0]))

/-- `hash_md5_binary_to_string`, of a digest of 16 bytes into a block. -/
def hashMd5BinaryToString (binary output : List Byte) : Option (List Byte) :=
  if output.length < 33 then none else some (overwrite (hexLoop binary 0 output) 32 [0])

/-- `hash_md5_string`, into a block. -/
def hashMd5String (data output : List Byte) : Option (List Byte) :=
  if output.length < 33 then none else hashMd5BinaryToString (hashMd5Binary data) output

/-! ## The digest -/

section Digest

variable {block text xs buffer : List Byte} {i m : ℕ}

theorem overwrite_append (h : xs.length = i) (text rest : List Byte) :
    overwrite (xs ++ rest) i text = xs ++ text ++ rest.drop text.length := by
  subst h
  rw [overwrite, List.take_left, List.drop_append, List.drop_of_length_le (by omega),
    List.nil_append, Nat.add_sub_cancel_left]

theorem length_overwrite (h : i + text.length ≤ block.length) :
    (overwrite block i text).length = block.length := by
  simp only [overwrite, List.length_append, List.length_take, List.length_drop]
  omega

/-- Every `STEP` reads one of the 16 words. -/
theorem word_lt : ∀ i ∈ round1 ++ round2 ++ round3 ++ round4, i.word < 16 := by decide

/-- **A block is its first 64 bytes.** -/
theorem transform_append (h : 64 ≤ xs.length) (r : Registers) (ys : List Byte) :
    transform r (xs ++ ys) = transform r xs := by
  have hget : ∀ n < 16, get (xs ++ ys) n = get xs n := by
    intro n hn
    simp only [get]
    rw [List.getD_append _ _ _ _ (by omega), List.getD_append _ _ _ _ (by omega),
      List.getD_append _ _ _ _ (by omega), List.getD_append _ _ _ _ (by omega)]
  have hfold : (round1 ++ round2 ++ round3 ++ round4).foldl (step (xs ++ ys)) r
      = (round1 ++ round2 ++ round3 ++ round4).foldl (step xs) r := by
    refine List.foldl_ext _ _ _ fun r i hi => ?_
    rw [step, step, hget _ (word_lt i hi)]
  rw [transform, transform, hfold]

/-- Blocks one after the other. -/
theorem blocks_append (h : xs.length = m * 64) (r : Registers) (ys : List Byte) (n : ℕ) :
    blocks r (xs ++ ys) (m + n) = blocks (blocks r xs m) ys n := by
  induction m generalizing r xs with
  | zero =>
    obtain rfl : xs = [] := List.length_eq_zero_iff.mp (by omega)
    rw [List.nil_append, Nat.zero_add]
    rfl
  | succ m ih =>
    rw [Nat.add_right_comm, blocks, blocks, transform_append (by omega),
      List.drop_append_of_le_length (by omega), ih (by rw [List.length_drop]; omega)]

@[simp] theorem blocks_one (r : Registers) (ptr : List Byte) :
    blocks r ptr 1 = transform r ptr := rfl

@[simp] theorem body_block (ctx : Md5Ctx) (ptr : List Byte) :
    (body ctx ptr 64).toRegisters = transform ctx.toRegisters ptr := rfl

@[simp] theorem body_lo (ctx : Md5Ctx) (ptr : List Byte) (size : ℕ) :
    (body ctx ptr size).lo = ctx.lo := rfl

@[simp] theorem body_hi (ctx : Md5Ctx) (ptr : List Byte) (size : ℕ) :
    (body ctx ptr size).hi = ctx.hi := rfl

/-- What a message is filled up with: a bit, and zeros up to a place for its length in bits. -/
def padding (size : ℕ) : List Byte :=
  0x80 :: (List.replicate ((119 - size % 64) % 64) (0 : Byte) ++
    (wordBytes (UInt32.ofNat (size * 8)) ++ wordBytes (UInt32.ofNat (size >>> 29))))

/-- What `MD5_Update` makes of a fresh context: the whole blocks are transformed, and what is left
waits in the buffer. -/
theorem md5Update_init (buffer data : List Byte) :
    md5Update (md5Init buffer) data
      = ⟨blocks initial data (data.length / 64), UInt32.ofNat data.length &&& 0x1fffffff,
        UInt32.ofNat (data.length >>> 29),
        overwrite buffer 0 (data.drop (data.length / 64 * 64))⟩ := by
  have hlo : ¬ UInt32.ofNat ((md5Init buffer).lo.toNat + data.length) &&& 0x1fffffff
      < (md5Init buffer).lo := UInt32.not_lt_zero
  have hused : ((md5Init buffer).lo &&& 0x3f).toNat = 0 := by simp [md5Init]
  rw [md5Update]
  simp only [if_neg hlo, hused, if_true, updateBlocks]
  split
  · simp only [body, md5Init, Nat.mul_div_left _ (show 0 < 64 by decide)]
    simp
  · rename_i hsmall
    have hdiv : data.length / 64 = 0 := Nat.div_eq_of_lt (Nat.not_le.mp hsmall)
    simp [hdiv, blocks, md5Init]

/-- What `MD5_Final` reads off the count of the bytes: how many wait in the buffer. -/
theorem toNat_and_ofNat (size : ℕ) :
    ((UInt32.ofNat size &&& 0x1fffffff) &&& 0x3f).toNat = size % 64 := by
  have h29 : (0x1fffffff : UInt32).toNat = 2 ^ 29 - 1 := rfl
  have h6 : (0x3f : UInt32).toNat = 2 ^ 6 - 1 := rfl
  rw [UInt32.toNat_and, UInt32.toNat_and, h29, h6, Nat.and_two_pow_sub_one_eq_mod,
    Nat.and_two_pow_sub_one_eq_mod, UInt32.toNat_ofNat']
  omega

/-- The count of the bits, of which the high ones are counted apart. -/
theorem shiftLeft_ofNat (size : ℕ) :
    (UInt32.ofNat size &&& 0x1fffffff) <<< 3 = UInt32.ofNat (size * 8) := by
  have h29 : (0x1fffffff : UInt32).toNat = 2 ^ 29 - 1 := rfl
  have h3 : (3 : UInt32).toNat % 32 = 3 := rfl
  refine UInt32.toNat_inj.mp ?_
  rw [UInt32.toNat_shiftLeft, UInt32.toNat_and, h29, h3, Nat.and_two_pow_sub_one_eq_mod,
    UInt32.toNat_ofNat', UInt32.toNat_ofNat', Nat.shiftLeft_eq]
  omega

/-- The last block: what is in the buffer, zeros and the length. -/
theorem finish_eq {ctx : Md5Ctx} {rest : List Byte} {used : ℕ} (hbuffer : ctx.buffer = xs ++ rest)
    (hlength : ctx.buffer.length = 64) (hused : xs.length = used) (hroom : used ≤ 56) :
    finish ctx used = digest (transform ctx.toRegisters
      (xs ++ List.replicate (56 - used) (0 : Byte) ++
        (wordBytes (ctx.lo <<< 3) ++ wordBytes ctx.hi))) := by
  have hrest : used + rest.length = 64 := by rw [← hused, ← List.length_append, ← hbuffer, hlength]
  have hzeros : 64 - used - 8 = 56 - used := by omega
  have hfilled : (xs ++ List.replicate (56 - used) (0 : Byte)).length = 56 := by
    rw [List.length_append, List.length_replicate]
    omega
  have hnil : (rest.drop (56 - used)).drop 8 = [] := by
    rw [List.drop_drop, List.drop_of_length_le (by omega)]
  rw [finish]
  simp only [hbuffer, overwrite_append hused, hzeros, List.length_replicate,
    overwrite_append hfilled]
  rw [show (wordBytes (ctx.lo <<< 3) ++ wordBytes ctx.hi).length = 8 from rfl, hnil,
    List.append_nil]
  rfl

/-- **`MD5_Final` fills the message up**, into one block or into two. -/
theorem md5Final_eq {ctx : Md5Ctx} {rest : List Byte} (hbuffer : ctx.buffer = xs ++ rest)
    (hlength : ctx.buffer.length = 64) (hused : (ctx.lo &&& 0x3f).toNat = xs.length)
    (hroom : xs.length < 64) :
    md5Final ctx = digest (blocks ctx.toRegisters
      (xs ++ (0x80 : Byte) :: (List.replicate ((119 - xs.length) % 64) (0 : Byte) ++
        (wordBytes (ctx.lo <<< 3) ++ wordBytes ctx.hi))) (if xs.length < 56 then 1 else 2)) := by
  have hrest : xs.length + rest.length = 64 := by
    rw [← List.length_append, ← hbuffer, hlength]
  have hbit : (xs ++ [(0x80 : Byte)]).length = xs.length + 1 := List.length_append
  rw [md5Final]
  simp only [hused, hbuffer, overwrite_append rfl, overwrite_append hbit]
  split
  · -- there is no room for the length: it goes into a block of its own
    have hblock : (xs ++ [(0x80 : Byte)] ++ List.replicate (64 - (xs.length + 1)) (0 : Byte)).length
        = 1 * 64 := by
      simp only [List.length_append, List.length_replicate, List.length_singleton]
      omega
    have hnil : (rest.drop 1).drop (64 - (xs.length + 1)) = [] := by
      rw [List.drop_drop, List.drop_of_length_le (by omega)]
    have hzeros : (119 - xs.length) % 64 = 64 - (xs.length + 1) + 56 := by omega
    have hsplit : ∀ length : List Byte, xs ++ (0x80 : Byte) ::
        (List.replicate ((119 - xs.length) % 64) (0 : Byte) ++ length)
        = (xs ++ [(0x80 : Byte)] ++ List.replicate (64 - (xs.length + 1)) (0 : Byte)) ++
          (List.replicate 56 (0 : Byte) ++ length) := by
      intro length
      rw [hzeros, List.replicate_add]
      simp
    rw [if_neg (by omega), hsplit, blocks_append hblock _ _ 1, List.length_singleton,
      List.length_replicate, hnil, List.append_nil, finish_eq (List.nil_append _).symm ?_
        List.length_nil (by omega)]
    · rw [body_block, body_lo, body_hi, blocks_one, blocks_one, List.nil_append, Nat.sub_zero]
    · exact hblock
  · have hzeros : (119 - xs.length) % 64 = 56 - (xs.length + 1) := by omega
    rw [if_pos (by omega), finish_eq rfl ?_ hbit (by omega), hzeros]
    · dsimp only
      rw [blocks_one, List.append_assoc, List.append_assoc, List.singleton_append]
    · simp only [List.length_append, List.length_drop, List.length_singleton]
      omega

theorem length_padding (size : ℕ) : (padding size).length = 1 + (119 - size % 64) % 64 + 8 := by
  simp only [padding, List.length_cons, List.length_append, List.length_replicate, wordBytes,
    List.length_nil]
  omega

/-- **`hash_md5_binary` is MD5**: the digest of the message and its padding, block for block.  What
the buffer held before makes no difference. -/
theorem md5Final_md5Update (hbuffer : buffer.length = 64) (data : List Byte) :
    md5Final (md5Update (md5Init buffer) data) = digest (blocks initial
      (data ++ padding data.length) ((data ++ padding data.length).length / 64)) := by
  have hwaiting : (data.drop (data.length / 64 * 64)).length = data.length % 64 := by
    rw [List.length_drop]
    omega
  have hstored : overwrite buffer 0 (data.drop (data.length / 64 * 64))
      = data.drop (data.length / 64 * 64) ++ buffer.drop (data.length % 64) := by
    rw [overwrite, hwaiting, List.take_zero, List.nil_append, Nat.zero_add]
  have hwhole : (data.take (data.length / 64 * 64)).length = data.length / 64 * 64 := by
    rw [List.length_take]
    omega
  have htransformed : blocks initial data (data.length / 64)
      = blocks initial (data.take (data.length / 64 * 64)) (data.length / 64) := by
    have := blocks_append hwhole initial (data.drop (data.length / 64 * 64)) 0
    rwa [List.take_append_drop] at this
  have hcount : (data ++ padding data.length).length / 64
      = data.length / 64 + if data.length % 64 < 56 then 1 else 2 := by
    rw [List.length_append, length_padding]
    split <;> omega
  rw [md5Update_init, hstored, md5Final_eq rfl, hwaiting]
  · dsimp only
    rw [shiftLeft_ofNat, hcount, htransformed, ← blocks_append hwhole, ← List.append_assoc,
      List.take_append_drop, padding]
  · dsimp only
    rw [List.length_append, hwaiting, List.length_drop]
    omega
  · dsimp only
    rw [toNat_and_ofNat, hwaiting]
  · omega

theorem length_hashMd5Binary (data : List Byte) : (hashMd5Binary data).length = 16 := by
  rw [hashMd5Binary, md5Final_md5Update (List.length_replicate ..)]
  rfl

end Digest

/-! ## The text of a digest -/

section HexString

variable {binary output : List Byte} {i : ℕ}

/-- The digits of a digest. -/
def hexString (binary : List Byte) : List Byte := binary.flatMap hex

theorem length_hexString (binary : List Byte) : (hexString binary).length = 2 * binary.length := by
  rw [hexString, List.length_flatMap]
  simp [hex, Nat.mul_comm]

/-- The value of a digit of `%x`. -/
def digitValue (c : Byte) : Byte := if c < 58 then c - 48 else c - 87

theorem digitValue_hex (b : Byte) :
    16 * digitValue (hexDigit (b / 16)) + digitValue (hexDigit (b % 16)) = b :=
  forall_byte (p := fun b =>
    16 * digitValue (hexDigit (b / 16)) + digitValue (hexDigit (b % 16)) = b)
    (by decide +kernel) b

theorem hex_injective : Function.Injective hex := by
  intro b c h
  obtain ⟨hhigh, hlow⟩ : hexDigit (b / 16) = hexDigit (c / 16) ∧
      hexDigit (b % 16) = hexDigit (c % 16) := by simpa [hex] using h
  rw [← digitValue_hex b, hhigh, hlow, digitValue_hex c]

theorem zero_notMem_hex (b : Byte) : (0 : Byte) ∉ hex b :=
  forall_byte (p := fun b => (0 : Byte) ∉ hex b) (by decide +kernel) b

/-- **The text says which digest it was.** -/
theorem hexString_injective : Function.Injective hexString := by
  intro xs
  induction xs with
  | nil =>
    intro ys h
    have hlength := congrArg List.length h
    rw [length_hexString, length_hexString] at hlength
    exact (List.length_eq_zero_iff.mp (by simpa using hlength.symm)).symm
  | cons b xs ih =>
    intro ys h
    rcases ys with _ | ⟨c, ys⟩
    · cases h
    · obtain ⟨hb, hxs⟩ := List.append_inj (h : hex b ++ hexString xs = hex c ++ hexString ys) rfl
      rw [hex_injective hb, ih hxs]

/-- **The loop writes the digits of the rest of the digest**, each pair over the terminator of the
pair before. -/
theorem take_hexLoop (h : (i + binary.length) * 2 < output.length) :
    (hexLoop binary i output).take ((i + binary.length) * 2)
        = output.take (i * 2) ++ hexString binary ∧
      (hexLoop binary i output).length = output.length := by
  induction binary generalizing i output with
  | nil => simp [hexLoop, hexString]
  | cons b binary ih =>
    rw [List.length_cons] at h
    have htext : (snprintf 3 (hex b)).1 ++ [0] = hex b ++ [0] := rfl
    have hlength : (overwrite output (i * 2) (hex b ++ [0])).length = output.length := by
      refine length_overwrite ?_
      simp only [hex, List.length_append, List.length_cons, List.length_nil]
      omega
    have hwritten : (overwrite output (i * 2) (hex b ++ [0])).take ((i + 1) * 2)
        = output.take (i * 2) ++ hex b := by
      have hend : (output.take (i * 2) ++ hex b).length = (i + 1) * 2 := by
        simp only [hex, List.length_append, List.length_take, List.length_cons, List.length_nil]
        omega
      rw [overwrite, ← List.append_assoc, List.append_assoc _ [0], ← hend, List.take_left]
    obtain ⟨htake, hloop⟩ := ih (by rw [hlength]; omega : (i + 1 + binary.length) * 2
      < (overwrite output (i * 2) (hex b ++ [0])).length)
    rw [hexLoop, htext, List.length_cons, ← Nat.add_assoc, Nat.add_right_comm]
    refine ⟨?_, hloop.trans hlength⟩
    rw [htake, hwritten, List.append_assoc]
    rfl

/-- **The text of the digest** is what the block holds, whatever it held before. -/
theorem cstr_hashMd5String {data : List Byte} (h : 33 ≤ output.length) :
    (hashMd5String data output).map cstr = some (hexString (hashMd5Binary data)) := by
  have hlength := length_hashMd5Binary data
  obtain ⟨htake, hloop⟩ := take_hexLoop
    (by omega : (0 + (hashMd5Binary data).length) * 2 < output.length)
  have hdigits : (hexLoop (hashMd5Binary data) 0 output).take 32
      = hexString (hashMd5Binary data) := by
    rw [hlength] at htake
    simpa using htake
  have hzero : (0 : Byte) ∉ hexString (hashMd5Binary data) := by
    rw [hexString, List.mem_flatMap]
    rintro ⟨b, -, hb⟩
    exact zero_notMem_hex b hb
  rw [hashMd5String, if_neg (by omega), hashMd5BinaryToString, if_neg (by omega), Option.map_some,
    overwrite, hdigits, List.append_assoc, List.singleton_append, cstr,
    takeWhile_append_cons rfl]
  exact congrArg some (cstr_of_notMem hzero)

end HexString

/-- The text `hash_md5_string` leaves in a block of 33 bytes. -/
def md5String (data : List Byte) : List Byte :=
  ((hashMd5String data (List.replicate 33 0)).map cstr).getD []

theorem md5String_eq (data : List Byte) : md5String data = hexString (hashMd5Binary data) := by
  rw [md5String, cstr_hashMd5String (by rw [List.length_replicate])]
  rfl

example : md5String (bytes "weather_59.250000_18.000000")
    = bytes "f134ae816459c75fbef55cbcf3616c0b" := by decide +kernel

end HashMd5

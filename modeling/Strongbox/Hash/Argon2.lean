import Strongbox.Hash.Blake2b
/-!
# Argon2id

The memory-hard password hash Argon2id of RFC 9106, version 0x13. Memory is a matrix of blocks of
128 words with one row, or *lane*, for each degree of parallelism. A pass fills every lane from
left to right in four *slices*; each new block is compressed from its left neighbour and a block
chosen by pseudo-random words. In the first half of the first pass those words come from counters
alone, later from the left neighbour itself.

The parameters are checked by `Params.refusal?` and the inputs by `inputRefusal?`; `derive` is meant
for what passes.

## Main results

* `length_derive`: the derived key has the length that was asked for, up to 64 bytes.
-/

namespace Strongbox.Hash.Argon2

/-- The costs of a derivation, each a word of 32 bits. -/
structure Params where
  /-- Memory in units of 1024 bytes. -/
  memory : UInt32
  passes : UInt32
  lanes : UInt32
  deriving DecidableEq, Repr

/-- Why a derivation cannot be carried out. -/
inductive Refusal where
  /-- Less than eight blocks, or less than the lanes ask for. -/
  | memoryTooSmall
  | tooFewPasses
  | tooFewLanes
  /-- More than 2^24 - 1 lanes. -/
  | tooManyLanes
  /-- Less than four bytes of output. -/
  | outputTooShort
  /-- Less than eight bytes of salt. -/
  | saltTooShort
  /-- More than 2^32 - 1 bytes of salt. -/
  | saltTooLong
  /-- More than 2^32 - 1 bytes of password. -/
  | passwordTooLong
  deriving DecidableEq, Repr

/-- The wording of a refusal. -/
def Refusal.message : Refusal → String
  | .memoryTooSmall => "memory cost is too small"
  | .tooFewPasses => "time cost is too small"
  | .tooFewLanes => "not enough threads"
  | .tooManyLanes => "too many threads"
  | .outputTooShort => "output is too short"
  | .saltTooShort => "salt is too short"
  | .saltTooLong => "salt is too long"
  | .passwordTooLong => "password is too long"

/-- The memory that the lanes ask for, eight blocks each, counted in a word like the costs. From
2^29 lanes on the count starts again at zero; so many lanes are refused further down. -/
def Params.leastMemory (p : Params) : UInt32 := 8 * p.lanes

/-- The first reason against these costs and an output of `length` bytes. -/
def Params.refusal? (p : Params) (length : Nat) : Option Refusal :=
  if p.memory < 8 ∨ p.memory < p.leastMemory then some .memoryTooSmall
  else if p.passes.toNat < 1 then some .tooFewPasses
  else if p.lanes.toNat < 1 then some .tooFewLanes
  else if 0xFFFFFF < p.lanes.toNat then some .tooManyLanes
  else if length < 4 then some .outputTooShort
  else none

/-- The most bytes of a password and of a salt. -/
def maxInputLength : Nat := 0xFFFFFFFF

/-- The first reason against a password and a salt of these lengths. -/
def inputRefusal? (passwordLength saltLength : Nat) : Option Refusal :=
  if maxInputLength < passwordLength then some .passwordTooLong
  else if saltLength < 8 then some .saltTooShort
  else if maxInputLength < saltLength then some .saltTooLong
  else none

/-! ## Geometry -/

/-- The blocks of one slice of one lane. -/
def Params.sliceLength (p : Params) : Nat := p.memory.toNat / (4 * p.lanes.toNat)

/-- The blocks of one lane. -/
def Params.laneLength (p : Params) : Nat := 4 * p.sliceLength

/-! ## Blocks -/

/-- A block of 128 words. -/
abbrev Block := Array UInt64

/-- The block of zeros. -/
def Block.zero : Block := Array.replicate 128 0

/-- The block whose bytes these are. -/
def Block.ofBytes (bytes : Bytes) : Block := (Blake2b.words bytes).toArray

/-- The bytes of a block. -/
def Block.bytes (block : Block) : Bytes := block.toList.flatMap Blake2b.wordBytes

/-- Wordwise exclusive or. -/
def Block.xor (x y : Block) : Block := Array.zipWith (· ^^^ ·) x y

/-- Addition with twice the product of the low halves. -/
@[inline] def hardAdd (x y : UInt64) : UInt64 :=
  x + y + 2 * (x &&& 0xFFFFFFFF) * (y &&& 0xFFFFFFFF)

/-- The mixing of four words. -/
def mix (v : Column UInt64) : Column UInt64 :=
  let a := hardAdd v.a v.b
  let d := Blake2b.rotr (v.d ^^^ a) 32
  let c := hardAdd v.c d
  let b := Blake2b.rotr (v.b ^^^ c) 24
  let a := hardAdd a b
  let d := Blake2b.rotr (d ^^^ a) 16
  let c := hardAdd c d
  ⟨a, Blake2b.rotr (b ^^^ c) 63, c, d⟩

/-- Stirs the sixteen words of a block at the places `place 0` to `place 15`. -/
@[inline] def stir (place : Nat → Nat) (block : Block) : Block :=
  let g := (Grid.ofFn fun i => block.getD (place i) 0).round fun _ => mix
  (g.toList.foldl
    (fun (s : Block × Nat) w => (s.1.setIfInBounds (place s.2) w, s.2 + 1)) (block, 0)).1

/-- The compression of two blocks: their exclusive or, stirred by rows and then by columns, and
combined with itself. -/
def compress (x y : Block) : Block :=
  let r := x.xor y
  let rows := (List.range 8).foldl (fun b i => stir (fun k => 16 * i + k) b) r
  let columns := (List.range 8).foldl
    (fun b i => stir (fun k => 2 * i + 16 * (k / 2) + k % 2) b) rows
  r.xor columns

/-! ## Hashing of variable length -/

/-- Digests in a chain of 64 bytes each, of which the first halves count, until at most 64 bytes
are left to produce. -/
def longChain : Nat → Nat → Bytes → Bytes
  | 0, _, _ => []
  | fuel + 1, left, last =>
    if left ≤ 64 then Blake2b.digest left last
    else
      let next := Blake2b.digest 64 last
      next.take 32 ++ longChain fuel (left - 32) next

/-- A hash of any length: BLAKE2b itself up to 64 bytes and a chain of digests above. -/
def longDigest (length : Nat) (message : Bytes) : Bytes :=
  let message := Bytes.littleEndian 4 length ++ message
  if length ≤ 64 then Blake2b.digest length message else longChain length length message

/-! ## Filling the memory -/

/-- The matrix of blocks, lane after lane. -/
abbrev Memory := Array Block

/-- Where in the filling a block stands. -/
structure Position where
  pass : Nat
  slice : Nat
  lane : Nat
  index : Nat

/-- Whether the pseudo-random words at a position come from counters alone. -/
def Position.isCounted (at_ : Position) : Bool := at_.pass == 0 && at_.slice < 2

/-- The block of pseudo-random words number `counter` of a slice that is filled by counters. -/
def addressBlock (p : Params) (at_ : Position) (counter : Nat) : Block :=
  let head : List Nat :=
    [at_.pass, at_.lane, at_.slice, p.laneLength * p.lanes.toNat, p.passes.toNat, 2, counter]
  let input := (head.map UInt64.ofNat ++ List.replicate 121 0).toArray
  compress Block.zero (compress Block.zero input)

/-- The lane and the place in it of the block that a pseudo-random word refers to. -/
def reference (p : Params) (at_ : Position) (word : UInt64) : Nat × Nat :=
  let lane :=
    if at_.pass == 0 && at_.slice == 0 then at_.lane else (word >>> 32).toNat % p.lanes.toNat
  let finished :=
    if at_.pass == 0 then at_.slice * p.sliceLength else p.laneLength - p.sliceLength
  let area :=
    if lane == at_.lane then finished + at_.index - 1
    else if at_.index == 0 then finished - 1 else finished
  let low := (word &&& 0xFFFFFFFF).toNat
  let distance := (area * ((low * low) >>> 32)) >>> 32
  let start := if at_.pass == 0 || at_.slice == 3 then 0 else (at_.slice + 1) * p.sliceLength
  (lane, (start + (area - 1 - distance)) % p.laneLength)

/-- The memory after the block at one position is filled. `words` are the counted pseudo-random
words of the slice, if there are any. -/
def fillBlock (p : Params) (words : Block) (memory : Memory) (at_ : Position) : Memory :=
  let column := at_.slice * p.sliceLength + at_.index
  let here := at_.lane * p.laneLength + column
  let left := at_.lane * p.laneLength + (column + p.laneLength - 1) % p.laneLength
  let previous := memory.getD left Block.zero
  let word :=
    if at_.isCounted then words.getD (at_.index % 128) 0 else previous.getD 0 0
  let (lane, place) := reference p at_ word
  let other := memory.getD (lane * p.laneLength + place) Block.zero
  let fresh := compress previous other
  let block := if at_.pass == 0 then fresh else fresh.xor (memory.getD here Block.zero)
  memory.setIfInBounds here block

/-- The memory after the blocks of one slice of one lane from `index` on are filled. -/
def fillSlice (p : Params) (pass slice lane : Nat) :
    Nat → Nat → Block → Memory → Memory
  | 0, _, _, memory => memory
  | count + 1, index, words, memory =>
    let at_ : Position := ⟨pass, slice, lane, index⟩
    let words :=
      if at_.isCounted && (index % 128 == 0 || (pass == 0 && slice == 0 && index == 2)) then
        addressBlock p at_ (index / 128 + 1)
      else words
    fillSlice p pass slice lane count (index + 1) words (fillBlock p words memory at_)

/-- The memory after one pass. The first two blocks of each lane are there before the first. -/
def fillPass (p : Params) (memory : Memory) (pass : Nat) : Memory :=
  (List.range 4).foldl (fun memory slice =>
    (List.range p.lanes.toNat).foldl (fun memory lane =>
      let first := if pass == 0 && slice == 0 then 2 else 0
      fillSlice p pass slice lane (p.sliceLength - first) first Block.zero memory)
      memory)
    memory

/-- The hash of all inputs that starts the derivation. -/
def initialDigest (p : Params) (password salt : Bytes) (length : Nat) : Bytes :=
  let number := Bytes.littleEndian 4
  Blake2b.digest 64 <|
    number p.lanes.toNat ++ number length ++ number p.memory.toNat ++ number p.passes.toNat
      ++ number 0x13 ++ number 2 ++ number password.length ++ password ++ number salt.length ++ salt
      ++ number 0 ++ number 0

/-- The memory in which only the first two blocks of each lane are filled. -/
def initialMemory (p : Params) (start : Bytes) : Memory :=
  let number := Bytes.littleEndian 4
  (List.range p.lanes.toNat).foldl (fun memory lane =>
    let block (column : Nat) :=
      Block.ofBytes (longDigest 1024 (start ++ number column ++ number lane))
    (memory.setIfInBounds (lane * p.laneLength) (block 0)).setIfInBounds
      (lane * p.laneLength + 1) (block 1))
    (Array.replicate (p.lanes.toNat * p.laneLength) Block.zero)

/-- The key of `length` bytes derived from a password. -/
def derive (p : Params) (password salt : Bytes) (length : Nat) : Bytes :=
  let filled := (List.range p.passes.toNat).foldl (fillPass p)
    (initialMemory p (initialDigest p password salt length))
  let last := (List.range p.lanes.toNat).foldl
    (fun sum lane => sum.xor (filled.getD ((lane + 1) * p.laneLength - 1) Block.zero)) Block.zero
  longDigest length last.bytes

theorem length_derive {length : Nat} (p : Params) (password salt : Bytes)
    (hlength : length ≤ 64) : (derive p password salt length).length = length := by
  rw [derive, longDigest, if_pos hlength]
  exact Blake2b.length_digest _ hlength

end Strongbox.Hash.Argon2

/-!
# Random words

A seed determines an endless sequence of words of 32 bits. The seed is expanded into a key of eight
words; under this key a block cipher enciphers the numbers 0, 1, 2, … into blocks of sixteen words,
and these blocks one after the other are the sequence.
-/

namespace NetworkLoading.Random

abbrev Key := Vector UInt32 8

abbrev Block := Vector UInt32 16

/-! ## Words -/

def rotateLeft (w : UInt32) (count : UInt32) : UInt32 :=
  (w <<< count) ||| (w >>> (32 - count))

def rotateRight (w : UInt32) (count : UInt32) : UInt32 :=
  (w >>> count) ||| (w <<< (32 - count))

/-! ## The key of a seed -/

/-- One step of a linear congruential generator. -/
def nextSeed (seed : UInt64) : UInt64 :=
  seed * 6364136223846793005 + 11634580027462260723

/-- A word from the state of the generator: the upper bits are folded onto each other, then
rotated by as much as the highest five bits say. -/
def seedWord (seed : UInt64) : UInt32 :=
  rotateRight (((seed >>> 18) ^^^ seed) >>> 27).toUInt32 (seed >>> 59).toUInt32

/-- The state of the generator after a number of steps. -/
def seedAfter (seed : UInt64) : Nat → UInt64
  | 0 => seed
  | steps + 1 => seedAfter (nextSeed seed) steps

/-- The key of a seed: the words of the first eight states after it. -/
def keyOf (seed : UInt64) : Key :=
  .ofFn fun i => seedWord (seedAfter seed (i.val + 1))

/-! ## Blocks -/

/-- Mixes four words of a block: additions, exclusive ors and rotations in turn. -/
def quarterRound (x : Block) (a b c d : Fin 16) : Block :=
  let x := x.set a (x[a] + x[b])
  let x := x.set d (rotateLeft (x[d] ^^^ x[a]) 16)
  let x := x.set c (x[c] + x[d])
  let x := x.set b (rotateLeft (x[b] ^^^ x[c]) 12)
  let x := x.set a (x[a] + x[b])
  let x := x.set d (rotateLeft (x[d] ^^^ x[a]) 8)
  let x := x.set c (x[c] + x[d])
  x.set b (rotateLeft (x[b] ^^^ x[c]) 7)

/-- Mixes a block as a square of four by four words: each column, then each diagonal. -/
def doubleRound (x : Block) : Block :=
  let x := quarterRound x 0 4 8 12
  let x := quarterRound x 1 5 9 13
  let x := quarterRound x 2 6 10 14
  let x := quarterRound x 3 7 11 15
  -- The diagonals wrap around at the right side of the square.
  let x := quarterRound x 0 5 10 15
  let x := quarterRound x 1 6 11 12
  let x := quarterRound x 2 7 8 13
  quarterRound x 3 4 9 14

/-- The block before it is mixed: four constants, the key, the number of the block in two words,
the lower first, and two words of zero. -/
def plainBlock (key : Key) (number : UInt64) : Block :=
  #v[0x61707865, 0x3320646e, 0x79622d32, 0x6b206574,
    key[0], key[1], key[2], key[3], key[4], key[5], key[6], key[7],
    number.toUInt32, (number >>> 32).toUInt32, 0, 0]

/-- The block with a number: six double rounds, and the block before them added to it. -/
def block (key : Key) (number : UInt64) : Block :=
  let plain := plainBlock key number
  let mixed := (List.range 6).foldl (fun x _ => doubleRound x) plain
  .zipWith (· + ·) plain mixed

/-! ## The sequence -/

/-- A place in the sequence of a key. -/
structure Words where
  key : Key
  /-- What is left of the current block. -/
  rest : List UInt32
  /-- The number of the block that follows. -/
  number : UInt64

namespace Words

/-- The start of the sequence of a seed. -/
def ofSeed (seed : UInt64) : Words :=
  { key := keyOf seed, rest := [], number := 0 }

/-- The next word, and the place behind it. -/
def next (w : Words) : UInt32 × Words :=
  match w.rest with
  | word :: rest => (word, { w with rest })
  | [] =>
    -- A block is made when its first word is needed.
    let words := block w.key w.number
    (words[0], { w with rest := words.toList.drop 1, number := w.number + 1 })

end Words

end NetworkLoading.Random

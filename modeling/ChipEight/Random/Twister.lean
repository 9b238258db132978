import ChipEight.Random.Source

namespace ChipEight

/-!
# The twister

The generator MT19937: 624 words of 32 bits, of which each draw renews one, with
a tempering of the renewed word as the output.

* `Twister.ofKey` — the state spread from a key of 32-bit words;
* `Twister.ofSeed` — the state of an integer seed, whose sign does not count;
* `Twister.nextWord` — one 32-bit output;
* `Twister.nextByte` — a number below 256, without bias: the top nine bits of an
  output are tried until they are below 256.
-/

/-- The state of the generator, and which word is renewed next. -/
structure Twister where
  words : Vector UInt32 624
  position : Fin 624
deriving DecidableEq

namespace Twister

/-! ### Seeding -/

/-- The word in front of a position, the last word being in front of the first. -/
def before (words : Vector UInt32 624) (i : Fin 624) : UInt32 := words[i - 1]

/-- How a word enters its successor when a seed is spread. -/
def scramble (word : UInt32) : UInt32 := word ^^^ (word >>> 30)

/-- The words that a single word is spread to. -/
def spread (seed : UInt32) : Vector UInt32 624 :=
  (List.finRange 624).foldl
    (fun (words : Vector UInt32 624) (i : Fin 624) =>
      if i = 0 then words.set 0 seed
      else words.set i (1812433253 * scramble (before words i) + i.val.toUInt32))
    (Vector.replicate 624 0)

/-- The position after `i` in the rounds of mixing, which leave out the first
    word. -/
def following (i : Fin 624) : Fin 624 := if i = 623 then 1 else i + 1

/-- The end of a step of mixing at a position: after the last word, the first one
    takes its value. -/
def closeRound (words : Vector UInt32 624) (i : Fin 624) : Vector UInt32 624 :=
  if i = 623 then words.set 0 words[623] else words

/-- Rounds of mixing that take in the words of a key: `steps` of them, at word `i`
    of the state and word `j` of the key. -/
def absorb (key : Array UInt32) : (steps : Nat) → (i : Fin 624) → (j : Nat) →
    Vector UInt32 624 → Fin 624 × Vector UInt32 624
  | 0, i, _, words => (i, words)
  | steps + 1, i, j, words =>
    let word := (words[i] ^^^ (scramble (before words i) * 1664525)) + key.getD j 0 + j.toUInt32
    -- State and key are gone through side by side, each from its start when it ends.
    absorb key steps (following i) (if j + 1 < key.size then j + 1 else 0)
      (closeRound (words.set i word) i)

/-- Rounds of mixing without a key. -/
def settle : (steps : Nat) → (i : Fin 624) → Vector UInt32 624 → Vector UInt32 624
  | 0, _, words => words
  | steps + 1, i, words =>
    let word := (words[i] ^^^ (scramble (before words i) * 1566083941)) - i.val.toUInt32
    settle steps (following i) (closeRound (words.set i word) i)

/-- The state spread from a key. -/
def ofKey (key : Array UInt32) : Twister :=
  let (i, words) := absorb key (max 624 key.size) 1 0 (spread 19650218)
  ⟨(settle 623 i words).set 0 0x80000000, 0⟩

/-- The 32-bit words of a number, the least significant first; none for zero. -/
def limbs (n : Nat) : List UInt32 :=
  if n = 0 then [] else n.toUInt32 :: limbs (n / 0x100000000)
decreasing_by omega

/-- The state of an integer seed.  The key is made of the words of its absolute
    value, and of a zero for the seed zero. -/
def ofSeed (seed : Int) : Twister :=
  ofKey (if seed = 0 then #[0] else (limbs seed.natAbs).toArray)

/-! ### Drawing -/

/-- The renewed word at the current position: the top bit of the word there and
    the rest of the one after it, shifted, together with the word 397 further
    on. -/
def renewed (t : Twister) : UInt32 :=
  let mixed := (t.words[t.position] &&& 0x80000000) ||| (t.words[t.position + 1] &&& 0x7FFFFFFF)
  t.words[t.position + 397] ^^^ (mixed >>> 1) ^^^ (if mixed &&& 1 = 0 then 0 else 0x9908B0DF)

/-- The output of a renewed word. -/
def temper (word : UInt32) : UInt32 :=
  let a := word ^^^ (word >>> 11)
  let b := a ^^^ ((a <<< 7) &&& 0x9D2C5680)
  let c := b ^^^ ((b <<< 15) &&& 0xEFC60000)
  c ^^^ (c >>> 18)

/-- One 32-bit output, and the state after it. -/
def nextWord (t : Twister) : UInt32 × Twister :=
  let word := t.renewed
  (temper word, ⟨t.words.set t.position word, t.position + 1⟩)

/-- A number below 256 from the top nine bits of an output, with at most `tries`
    outputs. -/
def nextByteWithin : (tries : Nat) → Twister → Nat × Twister
  | 0, t => (0, t)
  | tries + 1, t =>
    let (word, t) := t.nextWord
    let candidate := (word >>> 23).toNat
    if candidate < 256 then (candidate, t) else nextByteWithin tries t

/-- A number below 256.  The top bits of the outputs are a linear recurrence of
    order 19937, so at most that many of them in a row are set, and one try more
    is always enough. -/
def nextByte (t : Twister) : Nat × Twister := nextByteWithin 19938 t

instance : RandomSource Twister where
  next t := let (n, t) := t.nextByte; (n, t)

end Twister

end ChipEight

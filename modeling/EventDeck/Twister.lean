/-!
# The Mersenne twister

A generator of 32-bit words with a state of 624 words.  It is seeded with a list of words, here
those of the magnitude of a whole number, least significant first.
-/

namespace EventDeck

/-- The state of the generator: its words, and the next word to be used. -/
structure Twister where
  words : Array UInt32
  position : Nat

namespace Twister

/-- How many words the state has. -/
def size : Nat := 624

/-! ## Seeding -/

/-- How many values a word has. -/
def wordValues : Nat := 0x100000000

/-- The words of a natural number, least significant first; zero has one word. -/
def wordsOf (n : Nat) : List UInt32 :=
  if _h : n < wordValues then [n.toUInt32] else n.toUInt32 :: wordsOf (n / wordValues)
termination_by n
decreasing_by
  unfold wordValues at *
  omega

/-- The word after a word in the recurrence that fills a state, at a place of the state. -/
def nextFilling (word : UInt32) (place : Nat) : UInt32 :=
  (word ^^^ (word >>> 30)) * 1812433253 + Nat.toUInt32 place

/-- The state filled by the recurrence from its first word. -/
def fill (seed : UInt32) : Array UInt32 :=
  (List.range (size - 1)).foldl
    (fun (words : Array UInt32) i => words.push (nextFilling (words.getD i 0) (i + 1))) #[seed]

/-- One step of mixing: the word at `index` is combined with the one before it by a multiplier and
a final correction, and the first word follows the last one round the end of the state. -/
def mixAt (multiplier : UInt32) (correct : UInt32 → UInt32) (state : Array UInt32 × Nat) :
    Array UInt32 × Nat :=
  let (words, index) := state
  let before := words.getD (index - 1) 0
  let mixed := correct (words.getD index 0 ^^^ ((before ^^^ (before >>> 30)) * multiplier))
  let words := words.setIfInBounds index mixed
  if index + 1 < size then (words, index + 1) else (words.setIfInBounds 0 mixed, 1)

/-- A state seeded with a key of at least one word. -/
def ofKey (key : Array UInt32) : Twister :=
  -- the key is mixed in, again and again when it is shorter than the state
  let first := (List.range (max size key.size)).foldl
    (fun state step =>
      let j := step % key.size
      mixAt 1664525 (· + key.getD j 0 + Nat.toUInt32 j) state)
    (fill 19650218, 1)
  -- a second round through the state, without the key
  let second := (List.range (size - 1)).foldl
    (fun state _ => mixAt 1566083941 (· - Nat.toUInt32 state.2) state) first
  ⟨second.1.setIfInBounds 0 0x80000000, size⟩

/-- A state seeded with a whole number; the sign does not matter. -/
def ofSeed (seed : Int) : Twister :=
  ofKey (wordsOf seed.natAbs).toArray

/-! ## Words -/

/-- The state after all of its words have been used. -/
def renew (words : Array UInt32) : Array UInt32 :=
  (List.range size).foldl
    (fun words i =>
      -- the highest bit of one word and the other bits of the next
      let y := (words.getD i 0 &&& 0x80000000) ||| (words.getD ((i + 1) % size) 0 &&& 0x7fffffff)
      let twist : UInt32 := if y &&& 1 = 0 then 0 else 0x9908b0df
      words.setIfInBounds i (words.getD ((i + 397) % size) 0 ^^^ (y >>> 1) ^^^ twist))
    words

/-- Spreads the bits of a word of the state. -/
def temper (word : UInt32) : UInt32 :=
  let a := word ^^^ (word >>> 11)
  let b := a ^^^ ((a <<< 7) &&& 0x9d2c5680)
  let c := b ^^^ ((b <<< 15) &&& 0xefc60000)
  c ^^^ (c >>> 18)

/-- The next word. -/
def next (t : Twister) : UInt32 × Twister :=
  let t := if t.position < size then t else ⟨renew t.words, 0⟩
  (temper (t.words.getD t.position 0), { t with position := t.position + 1 })

/-- A number of `count` random bits, for one to 32 bits the high bits of one word; more are put
together from words, the least significant first. -/
def bits (count : Nat) (t : Twister) : Nat × Twister :=
  let (word, t) := t.next
  if count ≤ 32 then (word.toNat / Nat.pow 2 (32 - count), t)
  else
    let (high, t) := bits (count - 32) t
    (word.toNat + wordValues * high, t)
termination_by count
decreasing_by omega

/-- A double in the half-open unit interval, with 53 random bits. -/
def uniform (t : Twister) : Float × Twister :=
  let (a, t) := t.next
  let (b, t) := t.next
  -- 27 bits of one word and 26 of the other
  (Float.ofNat ((a >>> 5).toNat * 67108864 + (b >>> 6).toNat) / 9007199254740992.0, t)

end Twister

end EventDeck

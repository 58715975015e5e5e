/-
This file holds the 64-bit digest by which strings are told apart as hash keys.
The digest is unseeded, so a string has the same digest in every run. It is not
injective: different strings may share a digest.

The bytes of a string are folded into two words. Up to sixteen bytes enter the
words directly, read from both ends of the string so that every byte takes
part; a longer string first passes through sixteen bytes at a time. In the end
the product of the two words is folded into one word, the length is mixed in,
and the result is spread by a last multiplication and rotation.
-/

namespace MonkeyLang.Digest

/-! ### Arithmetic on words -/

/-- Both halves of the full product of two words, combined by exclusive or. -/
def foldedProduct (left right : UInt64) : UInt64 :=
  let product := left.toNat * right.toNat
  UInt64.ofNat product ^^^ UInt64.ofNat (product / UInt64.size)

/-- The word whose bytes are given, the lowest byte first. -/
def littleEndian (bytes : List UInt8) : UInt64 :=
  bytes.foldr (fun byte word => (word <<< 8) ||| byte.toUInt64) 0

/-- Rotates a word to the left by 26 bits. -/
def rotate (word : UInt64) : UInt64 :=
  (word <<< 26) ||| (word >>> 38)

/-! ### The two words -/

/-- The pair of words that bytes are folded into. -/
structure Words where
  first : UInt64
  second : UInt64
deriving DecidableEq, Repr, Inhabited

/-- The words before any byte. -/
def Words.initial : Words :=
  ⟨0x243f6a8885a308d3, 0x13198a2e03707344⟩

/-- Mixes one word of data into each of the two words. -/
def Words.mix (words : Words) (first second : UInt64) : Words :=
  ⟨words.first ^^^ first, words.second ^^^ second⟩

/-- Passes one block of sixteen bytes through the words. -/
def Words.absorbBlock (words : Words) (bytes : List UInt8) : Words :=
  let low := littleEndian (bytes.take 8)
  let high := littleEndian ((bytes.drop 8).take 8)
  ⟨words.second, foldedProduct (words.first ^^^ low) (0xa4093822299f31d0 ^^^ high)⟩

/-- Passes the given number of blocks through the words, from the front of the bytes. -/
def Words.absorbBlocks (words : Words) : Nat → List UInt8 → Words
  | 0, _ => words
  | count + 1, bytes => (words.absorbBlock bytes).absorbBlocks count (bytes.drop 16)

/-- The words after all bytes of a string. -/
def Words.ofBytes (bytes : List UInt8) : Words :=
  let count := bytes.length
  if count = 0 then
    .initial
  else if count ≤ 3 then
    let middle := (bytes.getD (count / 2) 0).toUInt64
    let last := (bytes.getD (count - 1) 0).toUInt64
    Words.initial.mix (bytes.getD 0 0).toUInt64 ((last <<< 8) ||| middle)
  else if count ≤ 7 then
    Words.initial.mix (littleEndian (bytes.take 4)) (littleEndian (bytes.drop (count - 4)))
  else if count ≤ 16 then
    Words.initial.mix (littleEndian (bytes.take 8)) (littleEndian (bytes.drop (count - 8)))
  else
    let tail := bytes.drop (count - 16)
    (Words.initial.absorbBlocks ((count - 1) / 16) bytes).mix
      (littleEndian (tail.take 8)) (littleEndian (tail.drop 8))

/-! ### The digest -/

/-- The digest of a string of bytes. -/
def ofBytes (bytes : List UInt8) : UInt64 :=
  let words := Words.ofBytes bytes
  let folded := foldedProduct words.first words.second ^^^ UInt64.ofNat bytes.length
  rotate (folded * 0xf1357aea2e62a9c5)

/-- The digest of a text, taken over its bytes in UTF-8. -/
def ofText (text : String) : UInt64 :=
  ofBytes text.toUTF8.toList

end MonkeyLang.Digest

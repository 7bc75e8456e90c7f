/-
  Verdict.Digest.Sha256 — the SHA-256 digest of bytes.

  The message is padded to whole blocks of 64 bytes, each block is stretched to 64 words,
  and the words are mixed into eight words of state, one after the other.
-/

import Verdict.Text.Hex

namespace Verdict.Digest

/-! ## Words -/

def roundConstants : List UInt32 := [
  0x428a2f98, 0x71374491, 0xb5c0fbcf, 0xe9b5dba5, 0x3956c25b, 0x59f111f1, 0x923f82a4, 0xab1c5ed5,
  0xd807aa98, 0x12835b01, 0x243185be, 0x550c7dc3, 0x72be5d74, 0x80deb1fe, 0x9bdc06a7, 0xc19bf174,
  0xe49b69c1, 0xefbe4786, 0x0fc19dc6, 0x240ca1cc, 0x2de92c6f, 0x4a7484aa, 0x5cb0a9dc, 0x76f988da,
  0x983e5152, 0xa831c66d, 0xb00327c8, 0xbf597fc7, 0xc6e00bf3, 0xd5a79147, 0x06ca6351, 0x14292967,
  0x27b70a85, 0x2e1b2138, 0x4d2c6dfc, 0x53380d13, 0x650a7354, 0x766a0abb, 0x81c2c92e, 0x92722c85,
  0xa2bfe8a1, 0xa81a664b, 0xc24b8b70, 0xc76c51a3, 0xd192e819, 0xd6990624, 0xf40e3585, 0x106aa070,
  0x19a4c116, 0x1e376c08, 0x2748774c, 0x34b0bcb5, 0x391c0cb3, 0x4ed8aa4a, 0x5b9cca4f, 0x682e6ff3,
  0x748f82ee, 0x78a5636f, 0x84c87814, 0x8cc70208, 0x90befffa, 0xa4506ceb, 0xbef9a3f7, 0xc67178f2]

def rotate (x n : UInt32) : UInt32 := (x >>> n) ||| (x <<< (32 - n))

def sigma0 (x : UInt32) : UInt32 := rotate x 7 ^^^ rotate x 18 ^^^ (x >>> 3)

def sigma1 (x : UInt32) : UInt32 := rotate x 17 ^^^ rotate x 19 ^^^ (x >>> 10)

structure Mix where
  a : UInt32
  b : UInt32
  c : UInt32
  d : UInt32
  e : UInt32
  f : UInt32
  g : UInt32
  h : UInt32
  deriving DecidableEq, Repr

def Mix.initial : Mix :=
  ⟨0x6a09e667, 0xbb67ae85, 0x3c6ef372, 0xa54ff53a, 0x510e527f, 0x9b05688c, 0x1f83d9ab, 0x5be0cd19⟩

def Mix.add (x y : Mix) : Mix :=
  ⟨x.a + y.a, x.b + y.b, x.c + y.c, x.d + y.d, x.e + y.e, x.f + y.f, x.g + y.g, x.h + y.h⟩

def Mix.words (m : Mix) : List UInt32 := [m.a, m.b, m.c, m.d, m.e, m.f, m.g, m.h]

/-- Mixes one word, with its constant, into the state. -/
def Mix.round (m : Mix) (constant word : UInt32) : Mix :=
  let s1 := rotate m.e 6 ^^^ rotate m.e 11 ^^^ rotate m.e 25
  let ch := (m.e &&& m.f) ^^^ (~~~m.e &&& m.g)
  let t1 := m.h + s1 + ch + constant + word
  let s0 := rotate m.a 2 ^^^ rotate m.a 13 ^^^ rotate m.a 22
  let maj := (m.a &&& m.b) ^^^ (m.a &&& m.c) ^^^ (m.b &&& m.c)
  ⟨t1 + (s0 + maj), m.a, m.b, m.c, m.d + t1, m.e, m.f, m.g⟩

/-! ## Blocks -/

/-- Bytes to words, the first byte being the highest. -/
def wordsOfBytes : List UInt8 → List UInt32
  | a :: b :: c :: d :: rest =>
    (a.toUInt32 <<< 24 ||| b.toUInt32 <<< 16 ||| c.toUInt32 <<< 8 ||| d.toUInt32)
      :: wordsOfBytes rest
  | _ => []

def bytesOfWord (w : UInt32) : List UInt8 :=
  [(w >>> 24).toUInt8, (w >>> 16).toUInt8, (w >>> 8).toUInt8, w.toUInt8]

/-- Adds words to those so far, the last one first. -/
def stretch : Nat → List UInt32 → List UInt32
  | 0, ws => ws
  | n + 1, ws =>
    let earlier (i : Nat) : UInt32 := ws.getD i 0
    stretch n ((sigma1 (earlier 1) + earlier 6 + sigma0 (earlier 14) + earlier 15) :: ws)

/-- The 64 words of a block of 16. -/
def schedule (block : List UInt32) : List UInt32 := (stretch 48 block.reverse).reverse

def Mix.block (m : Mix) (block : List UInt32) : Mix :=
  m.add ((roundConstants.zip (schedule block)).foldl (fun acc kw => acc.round kw.1 kw.2) m)

/-- What follows a message of so many bytes: a mark, zeros, and its length in bits. -/
def padding (length : Nat) : List UInt8 :=
  let bits := 8 * length
  let lengthBytes := (List.range 8).map fun i => UInt8.ofNat ((bits >>> (8 * (7 - i))) % 256)
  0x80 :: List.replicate ((119 - length % 64) % 64) 0 ++ lengthBytes

/-- Mixes all whole blocks into the state. -/
def mixBlocks (m : Mix) (words : List UInt32) : Mix :=
  if _ : words.length < 16 then m
  else mixBlocks (m.block (words.take 16)) (words.drop 16)
termination_by words.length
decreasing_by simp; omega

def sha256 (message : List UInt8) : List UInt8 :=
  let words := wordsOfBytes (message ++ padding message.length)
  (mixBlocks .initial words).words.flatMap bytesOfWord

/-- The digest of a text's UTF-8 bytes, in hexadecimal digits. -/
def hexOfText (s : String) : String := String.ofList (Text.hexBytes (sha256 s.toUTF8.toList))

end Verdict.Digest

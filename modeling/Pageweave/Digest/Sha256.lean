/-!
# SHA-256

The digest of a byte string, as 64 hexadecimal digits. Words wrap at 32 bits.
-/
namespace Pageweave.Sha256

/-- The first 32 bits of the fractional parts of the cube roots of the first 64 primes. -/
def roundConstants : Array UInt32 := #[
  0x428a2f98, 0x71374491, 0xb5c0fbcf, 0xe9b5dba5, 0x3956c25b, 0x59f111f1, 0x923f82a4, 0xab1c5ed5,
  0xd807aa98, 0x12835b01, 0x243185be, 0x550c7dc3, 0x72be5d74, 0x80deb1fe, 0x9bdc06a7, 0xc19bf174,
  0xe49b69c1, 0xefbe4786, 0x0fc19dc6, 0x240ca1cc, 0x2de92c6f, 0x4a7484aa, 0x5cb0a9dc, 0x76f988da,
  0x983e5152, 0xa831c66d, 0xb00327c8, 0xbf597fc7, 0xc6e00bf3, 0xd5a79147, 0x06ca6351, 0x14292967,
  0x27b70a85, 0x2e1b2138, 0x4d2c6dfc, 0x53380d13, 0x650a7354, 0x766a0abb, 0x81c2c92e, 0x92722c85,
  0xa2bfe8a1, 0xa81a664b, 0xc24b8b70, 0xc76c51a3, 0xd192e819, 0xd6990624, 0xf40e3585, 0x106aa070,
  0x19a4c116, 0x1e376c08, 0x2748774c, 0x34b0bcb5, 0x391c0cb3, 0x4ed8aa4a, 0x5b9cca4f, 0x682e6ff3,
  0x748f82ee, 0x78a5636f, 0x84c87814, 0x8cc70208, 0x90befffa, 0xa4506ceb, 0xbef9a3f7, 0xc67178f2]

/-- The first 32 bits of the fractional parts of the square roots of the first 8 primes. -/
def start : List UInt32 := [
  0x6a09e667, 0xbb67ae85, 0x3c6ef372, 0xa54ff53a,
  0x510e527f, 0x9b05688c, 0x1f83d9ab, 0x5be0cd19]

def rotate (x : UInt32) (n : UInt32) : UInt32 := (x >>> n) ||| (x <<< (32 - n))

/-- The bytes, a one bit, zeros up to eight bytes before a multiple of 64, and the length in bits. -/
def padded (bytes : List UInt8) : List UInt8 :=
  let size := bytes.length
  let zeros := (119 - size % 64) % 64
  let bits := 8 * size
  bytes ++ 0x80 :: List.replicate zeros 0 ++
    (List.range 8).map fun i => UInt8.ofNat (bits / Nat.pow 2 (8 * (7 - i)))

def words : List UInt8 → List UInt32
  | a :: b :: c :: d :: rest =>
    (a.toUInt32 <<< 24 ||| b.toUInt32 <<< 16 ||| c.toUInt32 <<< 8 ||| d.toUInt32) :: words rest
  | _ => []

/-- Words 16 to 63 follow from the 16 words of a block. -/
def extend : Nat → Array UInt32 → Array UInt32
  | 0, ws => ws
  | n + 1, ws =>
    let back (k : Nat) := ws.getD (ws.size - k) 0
    let a := back 15
    let b := back 2
    let s := rotate a 7 ^^^ rotate a 18 ^^^ (a >>> 3)
    let t := rotate b 17 ^^^ rotate b 19 ^^^ (b >>> 10)
    extend n (ws.push (back 16 + s + back 7 + t))

/-- One round over the eight working words. -/
def round (state : List UInt32) (kw : UInt32 × UInt32) : List UInt32 :=
  match state with
  | [a, b, c, d, e, f, g, h] =>
    let s := rotate e 6 ^^^ rotate e 11 ^^^ rotate e 25
    let choice := (e &&& f) ^^^ (~~~e &&& g)
    let t := h + s + choice + kw.1 + kw.2
    let u := rotate a 2 ^^^ rotate a 13 ^^^ rotate a 22
    let majority := (a &&& b) ^^^ (a &&& c) ^^^ (b &&& c)
    [t + (u + majority), a, b, c, d + t, e, f, g]
  | other => other

def block (state ws : List UInt32) : List UInt32 :=
  let schedule := (extend 48 ws.toArray).toList
  let after := (roundConstants.toList.zip schedule).foldl round state
  List.zipWith (· + ·) state after

/-- The blocks of 16 words in turn. -/
def blocks : (count : Nat) → List UInt32 → List UInt32 → List UInt32
  | 0, state, _ => state
  | n + 1, state, ws => blocks n (block state (ws.take 16)) (ws.drop 16)

def hexByte (b : UInt8) : List Char := [Nat.digitChar (b.toNat / 16), Nat.digitChar (b.toNat % 16)]

def hexWord (w : UInt32) : List Char :=
  hexByte (w >>> 24).toUInt8 ++ hexByte (w >>> 16).toUInt8 ++ hexByte (w >>> 8).toUInt8 ++ hexByte w.toUInt8

/-- The digest as digits. -/
def hex (bytes : List UInt8) : String :=
  let ws := words (padded bytes)
  String.ofList ((blocks (ws.length / 16) start ws).flatMap hexWord)

/-- The digest of a text's UTF-8 form. -/
def ofText (s : String) : String := hex s.toUTF8.toList

end Pageweave.Sha256

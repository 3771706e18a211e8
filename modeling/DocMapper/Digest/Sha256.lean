import DocMapper.Text.Quoted

/-!
# SHA-256

The digest of a byte sequence: the padded message is cut into blocks of sixteen
words, each block is spread to sixty-four, and every word turns a state of eight
words by one round.
-/

namespace DocMapper.Digest

def rotateRight (x : UInt32) (n : UInt32) : UInt32 := (x >>> n) ||| (x <<< (32 - n))

def bigEndian : Nat → Nat → List UInt8
  | 0, _ => []
  | width + 1, n => bigEndian width (n / 256) ++ [UInt8.ofNat (n % 256)]

def wordsOfBytes : List UInt8 → List UInt32
  | a :: b :: c :: d :: rest =>
      (a.toUInt32 <<< 24 ||| b.toUInt32 <<< 16 ||| c.toUInt32 <<< 8 ||| d.toUInt32) ::
        wordsOfBytes rest
  | _ => []

/-- The message, a one bit, zeros, and the length in bits, to whole blocks. -/
def pad (message : List UInt8) : List UInt8 :=
  let zeros := (119 - message.length % 64) % 64
  message ++ 0x80 :: (List.replicate zeros 0 ++ bigEndian 8 (8 * message.length))

theorem pad_length (message : List UInt8) : 64 ∣ (pad message).length := by
  have h : ∀ width n, (bigEndian width n).length = width := by
    intro width
    induction width with
    | zero => intro n; rfl
    | succ width ih => intro n; simp [bigEndian, ih]
  simp only [pad, List.length_append, List.length_cons, List.length_replicate, h]
  omega

def roundConstants : List UInt32 :=
  [0x428a2f98, 0x71374491, 0xb5c0fbcf, 0xe9b5dba5, 0x3956c25b, 0x59f111f1, 0x923f82a4, 0xab1c5ed5,
   0xd807aa98, 0x12835b01, 0x243185be, 0x550c7dc3, 0x72be5d74, 0x80deb1fe, 0x9bdc06a7, 0xc19bf174,
   0xe49b69c1, 0xefbe4786, 0x0fc19dc6, 0x240ca1cc, 0x2de92c6f, 0x4a7484aa, 0x5cb0a9dc, 0x76f988da,
   0x983e5152, 0xa831c66d, 0xb00327c8, 0xbf597fc7, 0xc6e00bf3, 0xd5a79147, 0x06ca6351, 0x14292967,
   0x27b70a85, 0x2e1b2138, 0x4d2c6dfc, 0x53380d13, 0x650a7354, 0x766a0abb, 0x81c2c92e, 0x92722c85,
   0xa2bfe8a1, 0xa81a664b, 0xc24b8b70, 0xc76c51a3, 0xd192e819, 0xd6990624, 0xf40e3585, 0x106aa070,
   0x19a4c116, 0x1e376c08, 0x2748774c, 0x34b0bcb5, 0x391c0cb3, 0x4ed8aa4a, 0x5b9cca4f, 0x682e6ff3,
   0x748f82ee, 0x78a5636f, 0x84c87814, 0x8cc70208, 0x90befffa, 0xa4506ceb, 0xbef9a3f7, 0xc67178f2]

def spread : Nat → List UInt32 → List UInt32
  | 0, words => words
  | count + 1, words =>
      let a := words.getD 14 0
      let b := words.getD 1 0
      let s0 := rotateRight a 7 ^^^ rotateRight a 18 ^^^ (a >>> 3)
      let s1 := rotateRight b 17 ^^^ rotateRight b 19 ^^^ (b >>> 10)
      spread count ((words.getD 15 0 + s0 + words.getD 6 0 + s1) :: words)

structure State where
  a : UInt32
  b : UInt32
  c : UInt32
  d : UInt32
  e : UInt32
  f : UInt32
  g : UInt32
  h : UInt32
  deriving DecidableEq, Repr

def State.words (s : State) : List UInt32 := [s.a, s.b, s.c, s.d, s.e, s.f, s.g, s.h]

def State.start : State :=
  ⟨0x6a09e667, 0xbb67ae85, 0x3c6ef372, 0xa54ff53a, 0x510e527f, 0x9b05688c, 0x1f83d9ab, 0x5be0cd19⟩

def State.round (s : State) (constant word : UInt32) : State :=
  let s1 := rotateRight s.e 6 ^^^ rotateRight s.e 11 ^^^ rotateRight s.e 25
  let choice := (s.e &&& s.f) ^^^ ((~~~ s.e) &&& s.g)
  let t1 := s.h + s1 + choice + constant + word
  let s0 := rotateRight s.a 2 ^^^ rotateRight s.a 13 ^^^ rotateRight s.a 22
  let majority := (s.a &&& s.b) ^^^ (s.a &&& s.c) ^^^ (s.b &&& s.c)
  ⟨t1 + s0 + majority, s.a, s.b, s.c, s.d + t1, s.e, s.f, s.g⟩

def State.add (s t : State) : State :=
  ⟨s.a + t.a, s.b + t.b, s.c + t.c, s.d + t.d, s.e + t.e, s.f + t.f, s.g + t.g, s.h + t.h⟩

def State.block (s : State) (words : List UInt32) : State :=
  let schedule := (spread 48 words.reverse).reverse
  s.add ((roundConstants.zip schedule).foldl (fun t p => t.round p.1 p.2) s)

def State.blocks : Nat → State → List UInt32 → State
  | 0, s, _ => s
  | count + 1, s, words => blocks count (s.block (words.take 16)) (words.drop 16)

def sha256 (message : List UInt8) : List UInt8 :=
  let padded := pad message
  let last := State.start.blocks (padded.length / 64) (wordsOfBytes padded)
  last.words.flatMap fun w => bigEndian 4 w.toNat

def hexText (bytes : List UInt8) : String :=
  String.ofList (bytes.flatMap fun b => Text.hexDigits 2 b.toNat)

def sha256Text (s : String) : String := hexText (sha256 s.toUTF8.toList)

end DocMapper.Digest

import ImageAudit.Bytes

/-! # SHA-256

The digest under which an image stores its blobs. The message is padded to blocks of 64 bytes: a
set bit, zero bits, and the length in bits. Each block is spread over 64 words, which are mixed one
by one into eight words of state.
-/

namespace ImageAudit.Sha256

structure State where
  a : UInt32
  b : UInt32
  c : UInt32
  d : UInt32
  e : UInt32
  f : UInt32
  g : UInt32
  h : UInt32
  deriving DecidableEq

namespace State

def initial : State :=
  ⟨0x6a09e667, 0xbb67ae85, 0x3c6ef372, 0xa54ff53a, 0x510e527f, 0x9b05688c, 0x1f83d9ab, 0x5be0cd19⟩

def add (x y : State) : State :=
  ⟨x.a + y.a, x.b + y.b, x.c + y.c, x.d + y.d, x.e + y.e, x.f + y.f, x.g + y.g, x.h + y.h⟩

def bytes (s : State) : Bytes :=
  [s.a, s.b, s.c, s.d, s.e, s.f, s.g, s.h].flatMap fun word => Bytes.ofNatBE 4 word.toNat

end State

def roundConstants : List UInt32 :=
  [0x428a2f98, 0x71374491, 0xb5c0fbcf, 0xe9b5dba5, 0x3956c25b, 0x59f111f1, 0x923f82a4, 0xab1c5ed5,
    0xd807aa98, 0x12835b01, 0x243185be, 0x550c7dc3, 0x72be5d74, 0x80deb1fe, 0x9bdc06a7, 0xc19bf174,
    0xe49b69c1, 0xefbe4786, 0x0fc19dc6, 0x240ca1cc, 0x2de92c6f, 0x4a7484aa, 0x5cb0a9dc, 0x76f988da,
    0x983e5152, 0xa831c66d, 0xb00327c8, 0xbf597fc7, 0xc6e00bf3, 0xd5a79147, 0x06ca6351, 0x14292967,
    0x27b70a85, 0x2e1b2138, 0x4d2c6dfc, 0x53380d13, 0x650a7354, 0x766a0abb, 0x81c2c92e, 0x92722c85,
    0xa2bfe8a1, 0xa81a664b, 0xc24b8b70, 0xc76c51a3, 0xd192e819, 0xd6990624, 0xf40e3585, 0x106aa070,
    0x19a4c116, 0x1e376c08, 0x2748774c, 0x34b0bcb5, 0x391c0cb3, 0x4ed8aa4a, 0x5b9cca4f, 0x682e6ff3,
    0x748f82ee, 0x78a5636f, 0x84c87814, 0x8cc70208, 0x90befffa, 0xa4506ceb, 0xbef9a3f7, 0xc67178f2]

/-- The bits of a word turned to the right. -/
def rotate (x : UInt32) (n : UInt32) : UInt32 := (x >>> n) ||| (x <<< (32 - n))

/-- The next word of a schedule whose words so far are `words`. -/
def nextWord (words : Array UInt32) : UInt32 :=
  let at' (back : Nat) := words.getD (words.size - back) 0
  let s0 := rotate (at' 15) 7 ^^^ rotate (at' 15) 18 ^^^ (at' 15 >>> 3)
  let s1 := rotate (at' 2) 17 ^^^ rotate (at' 2) 19 ^^^ (at' 2 >>> 10)
  at' 16 + s0 + at' 7 + s1

/-- The 64 words over which a block is spread. -/
def schedule (block : Bytes) : Array UInt32 :=
  let first := (Bytes.chunks 4 block).map fun word => UInt32.ofNat word.natBE
  (List.range 48).foldl (fun words _ => words.push (nextWord words)) first

/-- One round: a word of the schedule and its constant are mixed in. -/
def round (s : State) (word constant : UInt32) : State :=
  let s1 := rotate s.e 6 ^^^ rotate s.e 11 ^^^ rotate s.e 25
  let choice := (s.e &&& s.f) ^^^ ((~~~ s.e) &&& s.g)
  let t1 := s.h + s1 + choice + constant + word
  let s0 := rotate s.a 2 ^^^ rotate s.a 13 ^^^ rotate s.a 22
  let majority := (s.a &&& s.b) ^^^ (s.a &&& s.c) ^^^ (s.b &&& s.c)
  ⟨t1 + (s0 + majority), s.a, s.b, s.c, s.d + t1, s.e, s.f, s.g⟩

/-- The state after one more block. -/
def compress (s : State) (block : Bytes) : State :=
  s.add <| ((schedule block).toList.zip roundConstants).foldl
    (fun s (word, constant) => round s word constant) s

def padded (message : Bytes) : Bytes :=
  message ++ [0x80] ++ Bytes.zeros (Bytes.padding 64 (message.length + 9)) ++
    Bytes.ofNatBE 8 (message.length * 8)

/-- The digest of a message, 32 bytes. -/
def digest (message : Bytes) : Bytes :=
  ((Bytes.chunks 64 (padded message)).foldl compress State.initial).bytes

end ImageAudit.Sha256

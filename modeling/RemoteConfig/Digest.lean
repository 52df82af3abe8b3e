import RemoteConfig.Text.Hex
/-! # Message digest

The 128-bit digest MD5 of a text, written in base sixteen.  It stands for a list of signs where the
list itself would be too long, and is not meant to withstand an adversary. -/

namespace RemoteConfig.Digest

/-- The four words that a block transforms. -/
structure State where
  a : UInt32
  b : UInt32
  c : UInt32
  d : UInt32

def start : State := ⟨0x67452301, 0xefcdab89, 0x98badcfe, 0x10325476⟩

/-- How far each of the 64 steps rotates; a round repeats four amounts four times. -/
def rotations : List UInt32 :=
  [[7, 12, 17, 22], [5, 9, 14, 20], [4, 11, 16, 23], [6, 10, 15, 21]].flatMap fun amounts =>
    amounts ++ amounts ++ amounts ++ amounts

/-- The constant of each step, the integer part of `2 ^ 32 * |sin (i + 1)|`. -/
def constants : List UInt32 :=
  [0xd76aa478, 0xe8c7b756, 0x242070db, 0xc1bdceee, 0xf57c0faf, 0x4787c62a, 0xa8304613, 0xfd469501,
   0x698098d8, 0x8b44f7af, 0xffff5bb1, 0x895cd7be, 0x6b901122, 0xfd987193, 0xa679438e, 0x49b40821,
   0xf61e2562, 0xc040b340, 0x265e5a51, 0xe9b6c7aa, 0xd62f105d, 0x02441453, 0xd8a1e681, 0xe7d3fbc8,
   0x21e1cde6, 0xc33707d6, 0xf4d50d87, 0x455a14ed, 0xa9e3e905, 0xfcefa3f8, 0x676f02d9, 0x8d2a4c8a,
   0xfffa3942, 0x8771f681, 0x6d9d6122, 0xfde5380c, 0xa4beea44, 0x4bdecfa9, 0xf6bb4b60, 0xbebfbc70,
   0x289b7ec6, 0xeaa127fa, 0xd4ef3085, 0x04881d05, 0xd9d4d039, 0xe6db99e5, 0x1fa27cf8, 0xc4ac5665,
   0xf4292244, 0x432aff97, 0xab9423a7, 0xfc93a039, 0x655b59c3, 0x8f0ccc92, 0xffeff47d, 0x85845dd1,
   0x6fa87e4f, 0xfe2ce6e0, 0xa3014314, 0x4e0811a1, 0xf7537e82, 0xbd3af235, 0x2ad7d2bb, 0xeb86d391]

def rotateLeft (x amount : UInt32) : UInt32 := (x <<< amount) ||| (x >>> (32 - amount))

/-- The mixing function of a step, and the word of the block that it takes in. -/
def mix (s : State) (i : Nat) : UInt32 × Nat :=
  if i < 16 then ((s.b &&& s.c) ||| (~~~s.b &&& s.d), i)
  else if i < 32 then ((s.d &&& s.b) ||| (~~~s.d &&& s.c), (5 * i + 1) % 16)
  else if i < 48 then (s.b ^^^ s.c ^^^ s.d, (3 * i + 5) % 16)
  else (s.c ^^^ (s.b ||| ~~~s.d), (7 * i) % 16)

/-- One step on a block of sixteen words. -/
def step (block : List UInt32) (s : State) (i : Nat) : State :=
  let (f, word) := mix s i
  let sum := f + s.a + constants.getD i 0 + block.getD word 0
  ⟨s.d, s.b + rotateLeft sum (rotations.getD i 0), s.b, s.c⟩

def addBlock (s : State) (block : List UInt32) : State :=
  let t := (List.range 64).foldl (step block) s
  ⟨s.a + t.a, s.b + t.b, s.c + t.c, s.d + t.d⟩

/-- The low bytes of a number, the least significant first. -/
def littleEndian : (count : Nat) → Nat → List UInt8
  | 0, _ => []
  | count + 1, n => UInt8.ofNat n :: littleEndian count (n / 256)

/-- The bytes with a one bit, zeros, and the length in bits, up to a multiple of 64 bytes. -/
def pad (bytes : List UInt8) : List UInt8 :=
  let length := bytes.length
  bytes ++ [0x80] ++ List.replicate ((119 - length % 64) % 64) 0 ++
    littleEndian 8 (8 * length)

/-- The words of four bytes each, the least significant first. -/
def words : List UInt8 → List UInt32
  | a :: b :: c :: d :: rest =>
    (a.toUInt32 ||| (b.toUInt32 <<< 8) ||| (c.toUInt32 <<< 16) ||| (d.toUInt32 <<< 24)) ::
      words rest
  | _ => []

/-- Takes in the words in blocks of sixteen. -/
def absorb (s : State) : (blocks : Nat) → List UInt32 → State
  | 0, _ => s
  | blocks + 1, ws => absorb (addBlock s (ws.take 16)) blocks (ws.drop 16)

/-- A byte in base sixteen, two digits. -/
def byteText (b : UInt8) : List Char :=
  let ds := Text.hexDigits b.toNat
  List.replicate (2 - ds.length) '0' ++ ds

/-- The digest of a text in its UTF-8 form. -/
def md5 (s : String) : String :=
  let ws := words (pad s.toUTF8.toList)
  let t := absorb start (ws.length / 16) ws
  String.ofList <| [t.a, t.b, t.c, t.d].flatMap fun w =>
    (littleEndian 4 w.toNat).flatMap byteText

end RemoteConfig.Digest

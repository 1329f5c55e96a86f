import ClassDiagram.Text.Hex

/-!
# MD5

The digest of 128 bits that names findings.  A message is padded with a one bit, zeros and its
length in bits to a whole number of blocks of sixteen words; each block changes a state of four
words in sixty-four steps.  Words are of 32 bits, and their bytes come lowest first.
-/

namespace ClassDiagram.Digest.Md5

structure State where
  a : UInt32
  b : UInt32
  c : UInt32
  d : UInt32
  deriving DecidableEq, Repr

def State.initial : State := ⟨0x67452301, 0xEFCDAB89, 0x98BADCFE, 0x10325476⟩

/-- The constants of the steps: the integer parts of 2³² · |sin i|. -/
def constants : List UInt32 :=
  [0xD76AA478, 0xE8C7B756, 0x242070DB, 0xC1BDCEEE, 0xF57C0FAF, 0x4787C62A, 0xA8304613, 0xFD469501,
    0x698098D8, 0x8B44F7AF, 0xFFFF5BB1, 0x895CD7BE, 0x6B901122, 0xFD987193, 0xA679438E, 0x49B40821,
    0xF61E2562, 0xC040B340, 0x265E5A51, 0xE9B6C7AA, 0xD62F105D, 0x02441453, 0xD8A1E681, 0xE7D3FBC8,
    0x21E1CDE6, 0xC33707D6, 0xF4D50D87, 0x455A14ED, 0xA9E3E905, 0xFCEFA3F8, 0x676F02D9, 0x8D2A4C8A,
    0xFFFA3942, 0x8771F681, 0x6D9D6122, 0xFDE5380C, 0xA4BEEA44, 0x4BDECFA9, 0xF6BB4B60, 0xBEBFBC70,
    0x289B7EC6, 0xEAA127FA, 0xD4EF3085, 0x04881D05, 0xD9D4D039, 0xE6DB99E5, 0x1FA27CF8, 0xC4AC5665,
    0xF4292244, 0x432AFF97, 0xAB9423A7, 0xFC93A039, 0x655B59C3, 0x8F0CCC92, 0xFFEFF47D, 0x85845DD1,
    0x6FA87E4F, 0xFE2CE6E0, 0xA3014314, 0x4E0811A1, 0xF7537E82, 0xBD3AF235, 0x2AD7D2BB, 0xEB86D391]

/-- A round of sixteen steps: how it mixes three words, which word of the block a step takes, and by
how much it rotates. -/
structure Round where
  mix : UInt32 → UInt32 → UInt32 → UInt32
  word : Nat → Nat
  rotations : List UInt32

def rounds : List Round :=
  [⟨fun b c d => (b &&& c) ||| (~~~b &&& d), fun i => i, [7, 12, 17, 22]⟩,
   ⟨fun b c d => (b &&& d) ||| (c &&& ~~~d), fun i => 5 * i + 1, [5, 9, 14, 20]⟩,
   ⟨fun b c d => b ^^^ c ^^^ d, fun i => 3 * i + 5, [4, 11, 16, 23]⟩,
   ⟨fun b c d => c ^^^ (b ||| ~~~d), fun i => 7 * i, [6, 10, 15, 21]⟩]

def rotate (x n : UInt32) : UInt32 := (x <<< n) ||| (x >>> (32 - n))

/-- Step `i` of a round, with its constant. -/
def step (block : Array UInt32) (round : Round) (s : State) (i : Nat) (constant : UInt32) : State :=
  let word := block.getD (round.word i % 16) 0
  let turn := round.rotations.getD (i % 4) 0
  ⟨s.d, s.b + rotate (s.a + round.mix s.b s.c s.d + constant + word) turn, s.b, s.c⟩

def schedule : List (Round × Nat × UInt32) :=
  (rounds.flatMap fun round => (List.range 16).map fun i => (round, i)).zip constants |>.map
    fun ((round, i), constant) => (round, i, constant)

def absorb (s : State) (block : Array UInt32) : State :=
  let t := schedule.foldl (fun s (round, i, constant) => step block round s i constant) s
  ⟨s.a + t.a, s.b + t.b, s.c + t.c, s.d + t.d⟩

/-- The lowest `n` bytes of a number, lowest first. -/
def bytesOf : (n : Nat) → Nat → List UInt8
  | 0, _ => []
  | n + 1, value => (value % 256).toUInt8 :: bytesOf n (value / 256)

def pad (message : List UInt8) : List UInt8 :=
  message ++ 0x80 :: List.replicate ((119 - message.length % 64) % 64) 0 ++
    bytesOf 8 (8 * message.length)

def wordsOf : List UInt8 → List UInt32
  | a :: b :: c :: d :: rest =>
    (a.toUInt32 ||| (b.toUInt32 <<< 8) ||| (c.toUInt32 <<< 16) ||| (d.toUInt32 <<< 24)) ::
      wordsOf rest
  | _ => []

def absorbAll : (n : Nat) → State → List UInt32 → State
  | 0, s, _ => s
  | n + 1, s, words => absorbAll n (absorb s (words.take 16).toArray) (words.drop 16)

def digest (message : List UInt8) : List UInt8 :=
  let words := wordsOf (pad message)
  let s := absorbAll (words.length / 16) .initial words
  [s.a, s.b, s.c, s.d].flatMap fun word => bytesOf 4 word.toNat

def hexDigest (message : List UInt8) : List Char :=
  (digest message).flatMap fun b => Text.hex 2 b.toNat

end ClassDiagram.Digest.Md5

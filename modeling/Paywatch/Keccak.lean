/-!
# Keccak-256

The hash that names an event by its signature. The state is 25 words of 64 bits; 136
bytes of input are mixed in between two permutations of 24 rounds.
-/

namespace Paywatch.Keccak

/-- Constants of the rounds. -/
def roundConstants : List UInt64 := [
  0x0000000000000001, 0x0000000000008082, 0x800000000000808A, 0x8000000080008000,
  0x000000000000808B, 0x0000000080000001, 0x8000000080008081, 0x8000000000008009,
  0x000000000000008A, 0x0000000000000088, 0x0000000080008009, 0x000000008000000A,
  0x000000008000808B, 0x800000000000008B, 0x8000000000008089, 0x8000000000008003,
  0x8000000000008002, 0x8000000000000080, 0x000000000000800A, 0x800000008000000A,
  0x8000000080008081, 0x8000000000008080, 0x0000000080000001, 0x8000000080008008]

/-- How far each word is rotated. -/
def rotations : List UInt64 := [
  0, 1, 62, 28, 27, 36, 44, 6, 55, 20, 3, 10, 43, 25, 39, 41, 45, 15, 21, 8, 18,
  2, 61, 56, 14]

def rotate (x n : UInt64) : UInt64 := if n = 0 then x else x <<< n ||| x >>> (64 - n)

/-- A state; word `x + 5 * y` stands in column `x` and row `y`. -/
abbrev State := Array UInt64

def word (s : State) (i : Nat) : UInt64 := s.getD i 0

/-- Adds the parities of the two columns beside each column. -/
def theta (s : State) : State :=
  let parity := (Array.range 5).map fun x =>
    word s x ^^^ word s (x + 5) ^^^ word s (x + 10) ^^^ word s (x + 15) ^^^
      word s (x + 20)
  (Array.range 25).map fun i =>
    word s i ^^^ word parity ((i + 4) % 5) ^^^ rotate (word parity ((i + 1) % 5)) 1

/-- Rotates each word and moves it to its new place. -/
def rhoPi (s : State) : State :=
  (Array.range 25).map fun i =>
    let x := i % 5
    let y := i / 5
    let source := (x + 3 * y) % 5 + 5 * x
    rotate (word s source) (rotations.getD source 0)

/-- Mixes each row. -/
def chi (s : State) : State :=
  (Array.range 25).map fun i =>
    let row := i / 5 * 5
    word s i ^^^ (~~~ word s (row + (i + 1) % 5) &&& word s (row + (i + 2) % 5))

def round (s : State) (constant : UInt64) : State :=
  let s := chi (rhoPi (theta s))
  s.setIfInBounds 0 (word s 0 ^^^ constant)

def permute (s : State) : State := roundConstants.foldl round s

/-- Eight bytes as a word, the lowest byte first. -/
def wordOfBytes (bytes : List UInt8) : UInt64 :=
  bytes.foldr (fun b w => w <<< 8 ||| b.toUInt64) 0

/-- Mixes one block of 136 bytes into a state. -/
def absorb (s : State) (block : List UInt8) : State :=
  permute <| (Array.range 25).map fun i =>
    if i < 17 then word s i ^^^ wordOfBytes ((block.drop (8 * i)).take 8) else word s i

/-- Fills the last block: a one behind the input and a one at its end. -/
def pad (bytes : List UInt8) : List UInt8 :=
  let missing := 136 - bytes.length % 136
  if missing = 1 then bytes ++ [0x81]
  else bytes ++ 0x01 :: List.replicate (missing - 2) 0 ++ [0x80]

/-- Mixes in so many blocks. -/
def absorbAll : Nat → State → List UInt8 → State
  | 0, s, _ => s
  | n + 1, s, bytes => absorbAll n (absorb s (bytes.take 136)) (bytes.drop 136)

/-- The 32 bytes of the hash. -/
def hash (bytes : List UInt8) : List UInt8 :=
  let padded := pad bytes
  let s := absorbAll (padded.length / 136) (Array.replicate 25 0) padded
  (List.range 32).map fun i => (word s (i / 8) >>> (8 * (i % 8)).toUInt64).toUInt8

end Paywatch.Keccak

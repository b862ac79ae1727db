/-
  CardEffects.Coins.Keystream

  The sequence of 64-bit values behind a seed: the keystream of the ChaCha cipher with twelve
  rounds, a key expanded from the seed and an all-zero nonce.  The value at each place is a
  function of the seed and the place alone.
-/

namespace CardEffects.Keystream

/-! ## The cipher -/

/-- The sixteen words of a cipher state. -/
abbrev State := Vector UInt32 16

/-- Rotation to the left; the distance lies strictly between 0 and 32. -/
def rotateLeft (w distance : UInt32) : UInt32 :=
  (w <<< distance) ||| (w >>> (32 - distance))

/-- Mixes four words of the state. -/
def quarterRound (s : State) (i j k l : Fin 16) : State :=
  let a := s[i]
  let b := s[j]
  let c := s[k]
  let d := s[l]
  let a := a + b
  let d := rotateLeft (d ^^^ a) 16
  let c := c + d
  let b := rotateLeft (b ^^^ c) 12
  let a := a + b
  let d := rotateLeft (d ^^^ a) 8
  let c := c + d
  let b := rotateLeft (b ^^^ c) 7
  (((s.set i a).set j b).set k c).set l d

/-- Mixes the four columns, then the four diagonals. -/
def doubleRound (s : State) : State :=
  let s := quarterRound s 0 4 8 12
  let s := quarterRound s 1 5 9 13
  let s := quarterRound s 2 6 10 14
  let s := quarterRound s 3 7 11 15
  let s := quarterRound s 0 5 10 15
  let s := quarterRound s 1 6 11 12
  let s := quarterRound s 2 7 8 13
  quarterRound s 3 4 9 14

/-- `n` double rounds. -/
def doubleRounds : Nat → State → State
  | 0, s => s
  | n + 1, s => doubleRounds n (doubleRound s)

/-- The state before the first round: four constants, the key, the block counter and the
nonce. -/
def initial (key : Vector UInt32 8) (counter : UInt64) : State :=
  #v[0x61707865, 0x3320646e, 0x79622d32, 0x6b206574,
    key[0], key[1], key[2], key[3], key[4], key[5], key[6], key[7],
    counter.toUInt32, (counter >>> 32).toUInt32, 0, 0]

/-- The block of output words for a counter: twelve rounds, added to the state before them. -/
def block (key : Vector UInt32 8) (counter : UInt64) : State :=
  let start := initial key counter
  (doubleRounds 6 start).zipWith (· + ·) start

/-! ## The key -/

/-- One step of the generator that expands a seed. -/
def seedStep (s : UInt64) : UInt64 := s * 6364136223846793005 + 11634580027462260723

/-- The key word read off a generator state: the top bits folded together, then rotated to the
right by the uppermost five. -/
def seedWord (s : UInt64) : UInt32 :=
  let x := (((s >>> 18) ^^^ s) >>> 27).toUInt32
  let r := (s >>> 59).toUInt32
  if r = 0 then x else rotateLeft x (32 - r)

/-- The next `n` key words of the generator. -/
def seedWords : Nat → UInt64 → List UInt32
  | 0, _ => []
  | n + 1, s => seedWord (seedStep s) :: seedWords n (seedStep s)

theorem length_seedWords (n : Nat) (s : UInt64) : (seedWords n s).length = n := by
  induction n generalizing s with
  | zero => rfl
  | succ n ih => simp [seedWords, ih]

/-- The key a seed expands to. -/
def key (seed : UInt64) : Vector UInt32 8 :=
  ⟨(seedWords 8 seed).toArray, by simp [length_seedWords]⟩

/-! ## The values -/

/-- The value at place `n`: two consecutive words of the keystream, the low one first. -/
def value (seed : UInt64) (n : Nat) : UInt64 :=
  let words := block (key seed) (UInt64.ofNat (n / 8))
  let i : Fin 8 := ⟨n % 8, Nat.mod_lt _ (by decide)⟩
  let low := words[2 * i.val]
  let high := words[2 * i.val + 1]
  low.toUInt64 ||| (high.toUInt64 <<< 32)

/-- The number of values after which the block counter starts again. -/
def period : Nat := 8 * UInt64.size

/-- The values repeat. -/
theorem value_add_period (seed : UInt64) (n : Nat) : value seed (n + period) = value seed n := by
  have hword : (n + period) % 8 = n % 8 := Nat.add_mul_mod_self_left n 8 UInt64.size
  have hblock : UInt64.ofNat ((n + period) / 8) = UInt64.ofNat (n / 8) := by
    rw [period, Nat.add_mul_div_left n UInt64.size (by decide)]
    apply UInt64.toNat_inj.1
    rw [UInt64.toNat_ofNat', UInt64.toNat_ofNat']
    exact Nat.add_mod_right (n / 8) UInt64.size
  simp only [value, hword, hblock]

/-- The first three values for seed 42. -/
example : (List.range 3).map (value 42)
    = [9713269763989775522, 10011513049433592189, 11740708795755607249] := by
  decide +kernel

end CardEffects.Keystream

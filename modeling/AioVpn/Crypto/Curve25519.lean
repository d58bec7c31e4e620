import AioVpn.Crypto.Key

/-!
# `Curve25519`

`com.wireguard.crypto.Curve25519`, which `Key.generatePublicKey` calls whenever a key
pair is made, and so for every interface.  Numbers modulo `2 ^ 255 - 19` are ten `int`s
of twenty-six bits, least significant first; products are accumulated in `long`s.  The
arithmetic is Java's: `int` is `BitVec 32`, `long` is `BitVec 64`, `>>` is the arithmetic
shift, and nothing here says that it does not overflow.

## The arrays

The source writes its results into arrays that belong to one evaluation.  Each is
written completely before it is read, so a function here returns the array it writes:
`t1` and `t2` are local to the functions that use them, and an operation whose result
is also an argument reads the argument first.  The one entry the source never writes,
`t1[19]`, is zero from the constructor on.

A loop over an array is a recursion over the list of its entries, with the variables
of the loop as arguments.
-/

namespace AioVpn
namespace Curve25519

/-- An `int[]`. -/
abbrev Ints := List (BitVec 32)

/-- `0x03FFFFFF`, the bits of a limb. -/
def mask26 : BitVec 32 := 0x03FFFFFF#32

/-- `0x001FFFFF`, the bits of the topmost limb. -/
def mask21 : BitVec 32 := 0x001FFFFF#32

/-- `x[NUM_LIMBS_255BIT - 1] &= 0x001FFFFF`. -/
def maskTop (x : Ints) : Ints := x.modify 9 (· &&& mask21)

/-! ## Reduction -/

/-- The loop `carry += x[index]; y[index] = carry & 0x03FFFFFF; carry >>= 26`. -/
def carryLoop : BitVec 32 → Ints → Ints × BitVec 32
  | carry, [] => ([], carry)
  | carry, x :: xs =>
      let carry := carry + x
      let rest := carryLoop (carry.sshiftRight 26) xs
      ((carry &&& mask26) :: rest.1, rest.2)

/-- `reduceQuick`. -/
def reduceQuick (x : Ints) : Ints :=
  let t2 := (carryLoop 19#32 x).1
  let mask := -((t2.getD 9 0).sshiftRight 21 &&& 1#32)
  let nmask := ~~~mask
  let t2 := maskTop t2
  List.zipWith (fun x t => (x &&& nmask) ||| (t &&& mask)) x t2

/-- The first loop of `reduce`, which adds nineteen times the number above bit 255,
and the loop that carries on where the high half is short. -/
def reduceLoop : BitVec 32 → BitVec 32 → Ints → Ints → Ints
  | limb, carry, x :: xs, h :: hs =>
      let limb := limb + h <<< 5
      let carry := carry + ((limb &&& mask26) * 19#32 + x)
      (carry &&& mask26) :: reduceLoop (limb.sshiftRight 26) (carry.sshiftRight 26) xs hs
  | _, carry, xs, _ => (carryLoop carry xs).1

/-- `reduce`, on the ten limbs of the low half and the `size` limbs of the high one. -/
def reduce (low high : Ints) : Ints :=
  let x := reduceLoop ((low.getD 9 0).sshiftRight 21) 0#32 (maskTop low) high
  -- what has come out above bit 255 is added once more
  let carry := (x.getD 9 0).sshiftRight 21 * 19#32
  reduceQuick (carryLoop carry (maskTop x)).1

/-! ## Sums and differences -/

/-- The loop of `add`. -/
def addLoop : BitVec 32 → Ints → Ints → Ints
  | carry, x :: xs, y :: ys =>
      let carry := carry.sshiftRight 26 + x + y
      (carry &&& mask26) :: addLoop carry xs ys
  | _, _, _ => []

/-- `add`. -/
def add (x y : Ints) : Ints := reduceQuick (addLoop 0#32 x y)

/-- The first loop of `sub`. -/
def subLoop : BitVec 32 → Ints → Ints → Ints × BitVec 32
  | borrow, x :: xs, y :: ys =>
      let borrow := x - y - (borrow.sshiftRight 26 &&& 1#32)
      let rest := subLoop borrow xs ys
      ((borrow &&& mask26) :: rest.1, rest.2)
  | borrow, _, _ => ([], borrow)

/-- The second loop of `sub`, from the second limb on. -/
def borrowLoop : BitVec 32 → Ints → Ints
  | _, [] => []
  | borrow, x :: xs =>
      let borrow := x - (borrow.sshiftRight 26 &&& 1#32)
      (borrow &&& mask26) :: borrowLoop borrow xs

/-- `sub`. -/
def sub (x y : Ints) : Ints :=
  let (result, borrow) := subLoop 0#32 x y
  match result with
  | [] => []
  | r :: rs =>
      -- nineteen less where the difference is negative
      let borrow := r - (-(borrow.sshiftRight 26 &&& 1#32) &&& 19#32)
      maskTop ((borrow &&& mask26) :: borrowLoop borrow rs)

/-! ## Products -/

/-- A `long` from an `int`. -/
def long (x : BitVec 32) : BitVec 64 := x.signExtend 64

/-- One round of the second loop of `mul`, on the entries of `t1` from `i` on: the
first nine are increased and the next one is new. -/
def mulRow (v : BitVec 64) (y : Ints) (t1 : List (BitVec 64)) : List (BitVec 64) :=
  List.zipWith (fun t y => t + v * long y) t1 (y.take 9) ++ [v * long (y.getD 9 0)]

/-- The second loop of `mul`; the first entry is final after its round. -/
def mulRows (y : Ints) : Ints → List (BitVec 64) → List (BitVec 64)
  | [], t1 => t1
  | x :: xs, t1 =>
      let row := mulRow (long x) y t1
      row.headD 0 :: mulRows y xs row.tail

/-- The products in `t1`. -/
def products (x y : Ints) : List (BitVec 64) :=
  let row := y.map fun y => long (x.headD 0) * long y
  row.headD 0 :: mulRows y x.tail row.tail ++ [0#64]

/-- The loop of `mul` that propagates the carries. -/
def splitLoop : BitVec 64 → List (BitVec 64) → Ints
  | _, [] => []
  | v, t :: ts =>
      let v := v.sshiftRight 26 + t
      (v.truncate 32 &&& mask26) :: splitLoop v ts

/-- `mul`. -/
def mul (x y : Ints) : Ints :=
  let t2 := splitLoop 0#64 (products x y)
  reduce (t2.take 10) (t2.drop 10)

/-- `square`. -/
def square (x : Ints) : Ints := mul x x

/-- The loop of `mulA24`. -/
def mulA24Loop : BitVec 64 → Ints → Ints × BitVec 64
  | carry, [] => ([], carry)
  | carry, x :: xs =>
      let carry := carry + 121665#64 * long x
      let rest := mulA24Loop (carry.sshiftRight 26) xs
      ((carry.truncate 32 &&& mask26) :: rest.1, rest.2)

/-- `mulA24`. -/
def mulA24 (x : Ints) : Ints :=
  let (t2, carry) := mulA24Loop 0#64 x
  reduce t2 [carry.truncate 32 &&& mask26]

/-! ## Powers -/

/-- The body of the loop of `pow250` that repeats the pattern, on `A` and `result`. -/
def repeatPattern (r : Ints × Ints) : Ints × Ints :=
  let a := square^[10] r.1
  (a, mul r.2 a)

/-- The body of the loop of `pow250` that fills the gaps. -/
def fillGap (r : Ints × Ints) : Ints × Ints :=
  let a := square r.1
  (a, mul r.2 a)

/-- `pow250`. -/
def pow250 (x : Ints) : Ints :=
  let a := square^[9] (square x)
  let result := (repeatPattern^[23] (a, mul a x)).2
  let a := square result
  (fillGap^[8] (a, mul result a)).2

/-- `recip`. -/
def recip (x : Ints) : Ints :=
  let result := pow250 x
  let result := mul (square (square result)) x
  let result := mul (square (square result)) x
  mul (square result) x

/-! ## The ladder -/

/-- The four numbers of the ladder. -/
structure Ladder where
  x_2 : Ints
  z_2 : Ints
  x_3 : Ints
  z_3 : Ints

/-- `cswap`. -/
def cswap (select : BitVec 32) (x y : Ints) : Ints × Ints :=
  let select := -select
  (List.zipWith (fun x y => x ^^^ (select &&& (x ^^^ y))) x y,
    List.zipWith (fun x y => y ^^^ (select &&& (x ^^^ y))) x y)

/-- The two swaps of the ladder. -/
def Ladder.swap (select : BitVec 32) (s : Ladder) : Ladder :=
  let x := cswap select s.x_2 s.x_3
  let z := cswap select s.z_2 s.z_3
  ⟨x.1, z.1, x.2, z.2⟩

/-- The arithmetic of one iteration of `evalCurve`. -/
def Ladder.step (x_1 : Ints) (s : Ladder) : Ladder :=
  let a := add s.x_2 s.z_2
  let aa := square a
  let b := sub s.x_2 s.z_2
  let bb := square b
  let e := sub aa bb
  let c := add s.x_3 s.z_3
  let d := sub s.x_3 s.z_3
  let da := mul d a
  let cb := mul c b
  { x_3 := square (add da cb)
    z_3 := mul (square (sub da cb)) x_1
    x_2 := mul aa bb
    z_2 := mul (add (mulA24 e) aa) e }

/-- One iteration of `evalCurve`, with `swap` and the ladder. -/
def iteration (x_1 : Ints) (svalue : BitVec 32) (sbit : ℕ) (s : BitVec 32 × Ladder) :
    BitVec 32 × Ladder :=
  let select := svalue.sshiftRight sbit &&& 1#32
  (select, (s.2.swap (s.1 ^^^ select)).step x_1)

/-- The iterations for the bits of `svalue` from `sbit` down to zero. -/
def evalBits (x_1 : Ints) (svalue : BitVec 32) : ℕ → BitVec 32 × Ladder → BitVec 32 × Ladder
  | 0, s => iteration x_1 svalue 0 s
  | sbit + 1, s => evalBits x_1 svalue sbit (iteration x_1 svalue (sbit + 1) s)

/-- The iterations for the bytes below `sposn`. -/
def evalBytes (x_1 : Ints) (privateKey : List (BitVec 8)) :
    ℕ → BitVec 32 × Ladder → BitVec 32 × Ladder
  | 0, s => s
  | sposn + 1, s =>
      let byte := (privateKey.getD sposn 0).signExtend 32
      let svalue := if sposn = 0 then byte &&& 0xF8#32 else byte
      evalBytes x_1 privateKey sposn (evalBits x_1 svalue 7 s)

/-- `evalCurve`. -/
def evalCurve (x_1 : Ints) (privateKey : List (BitVec 8)) (s : Ladder) : Ladder :=
  let svalue := (privateKey.getD 31 0).signExtend 32 ||| 0x40#32
  let s := evalBytes x_1 privateKey 31 (evalBits x_1 svalue 6 (0#32, s))
  s.2.swap s.1

/-! ## The evaluation -/

/-- One iteration of the loop that unpacks the public key. -/
def unpackByte (publicKey : List (BitVec 8)) (x : Ints) (index : ℕ) : Ints :=
  let bit := index * 8 % 26
  let word := index * 8 / 26
  let value := (publicKey.getD index 0).signExtend 32 &&& 0xFF#32
  if bit ≤ 26 - 8 then x.modify word (· ||| value <<< bit)
  else (x.modify word fun l => (l ||| value <<< bit) &&& mask26).modify (word + 1)
    (· ||| value.sshiftRight (26 - bit))

/-- The limbs of the public key, reduced; the base point without one. -/
def unpack : Option (List (BitVec 8)) → Ints
  | some publicKey =>
      reduceQuick (reduceQuick
        ((List.range 32).foldl (unpackByte publicKey) (List.replicate 10 0#32)))
  | none => 9#32 :: List.replicate 9 0#32

/-- One iteration of the loop that packs the result. -/
def packByte (x : Ints) (index : ℕ) : BitVec 8 :=
  let bit := index * 8 % 26
  let word := index * 8 / 26
  if bit ≤ 26 - 8 then ((x.getD word 0).sshiftRight bit).truncate 8
  else ((x.getD word 0).sshiftRight bit ||| (x.getD (word + 1) 0) <<< (26 - bit)).truncate 8

/-- The number one. -/
def one : Ints := 1#32 :: List.replicate 9 0#32

/-- The number zero. -/
def zero : Ints := List.replicate 10 0#32

/-- `eval`, with the thirty-two bytes it writes. -/
def eval (privateKey : List (BitVec 8)) (publicKey : Option (List (BitVec 8))) :
    List (BitVec 8) :=
  let x_1 := unpack publicKey
  let s := evalCurve x_1 privateKey { x_2 := one, z_2 := zero, x_3 := x_1, z_3 := one }
  let x_2 := mul s.x_2 (recip s.z_2)
  (List.range 32).map (packByte x_2)

@[simp] theorem length_eval (privateKey : List (BitVec 8)) (publicKey : Option (List (BitVec 8))) :
    (eval privateKey publicKey).length = 32 := by
  simp [eval]

end Curve25519

namespace Key

/-- `Key.generatePublicKey`. -/
def generatePublicKey (privateKey : Key) : Key :=
  ⟨Curve25519.eval privateKey.bytes none, Curve25519.length_eval _ _⟩

/-- `Key.generatePrivateKey`, from the bytes of the random generator. -/
def generatePrivateKey (random : Key) : Key :=
  ⟨(random.bytes.modify 0 (· &&& 248#8)).modify 31 fun b => (b &&& 127#8) ||| 64#8, by
    simp [random.length_bytes]⟩

end Key

end AioVpn

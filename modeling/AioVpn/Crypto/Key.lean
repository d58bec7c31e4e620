import AioVpn.Text.JavaString

/-!
# WireGuard keys and their text encodings

`com.wireguard.crypto.Key`.  A key is thirty-two bytes; the class converts it to
and from base64 and hexadecimal in constant time, with masks built out of Java's
32-bit arithmetic.  The masks are kept as they are written: `int` is `BitVec 32`,
`>>>` is the logical shift, a `byte` is sign-extended when it is used as an `int`
and a `char` is zero-extended.
-/

namespace AioVpn

/-- `Key.Format`. -/
inductive KeyFormat where
  | base64
  | binary
  | hex
  deriving DecidableEq

/-- `Key.Format.getLength`. -/
def KeyFormat.length : KeyFormat → ℕ
  | .base64 => 44
  | .binary => 32
  | .hex => 64

/-- `KeyFormatException.Type`. -/
inductive KeyErrorType where
  | contents
  | length
  deriving DecidableEq

/-- `KeyFormatException`. -/
structure KeyFormatException where
  format : KeyFormat
  type : KeyErrorType
  deriving DecidableEq

/-- A key. -/
structure Key where
  bytes : List (BitVec 8)
  length_bytes : bytes.length = 32
  deriving DecidableEq

namespace Key

/-- A Java `char` used as an `int`. -/
def intOfChar (c : JChar) : BitVec 32 := BitVec.ofNat 32 c.toNat

/-- `(char) x`. -/
def charOfInt (x : BitVec 32) : JChar := UInt16.ofNat x.toNat

/-! ## Base64 -/

/-- The value of one base64 character, `-1` outside the alphabet. -/
def decodeSextet (c : BitVec 32) : BitVec 32 :=
  -1#32
    + ((((64#32 - c) &&& (c - 91#32)) >>> 8) &&& (c - 64#32))
    + ((((96#32 - c) &&& (c - 123#32)) >>> 8) &&& (c - 70#32))
    + ((((47#32 - c) &&& (c - 58#32)) >>> 8) &&& (c + 5#32))
    + ((((42#32 - c) &&& (c - 44#32)) >>> 8) &&& 63#32)
    + ((((46#32 - c) &&& (c - 48#32)) >>> 8) &&& 64#32)

/-- `Key.decodeBase64`: four characters from `srcOffset` on, as a 24-bit value;
negative when one of them is outside the alphabet. -/
def decodeBase64 (src : JString) (srcOffset : ℕ) : BitVec 32 :=
  (List.range 4).foldl
    (fun val i => val ||| (decodeSextet (intOfChar (src.getD (i + srcOffset) 0)) <<< (18 - 6 * i)))
    0#32

/-- The three bytes of a decoded group. -/
def groupBytes (val : BitVec 32) : List (BitVec 8) :=
  [(val >>> 16).truncate 8, (val >>> 8).truncate 8, val.truncate 8]

/-- `Key.fromBase64`. -/
def fromBase64 (str : JString) : Except KeyFormatException Key :=
  if str.length ≠ KeyFormat.base64.length ∨ str.getD (KeyFormat.base64.length - 1) 0 ≠ ch '=' then
    .error ⟨.base64, .length⟩
  else
    let vals := (List.range 10).map fun i => decodeBase64 str (i * 4)
    let endSegment := [str.getD 40 0, str.getD 41 0, str.getD 42 0, ch 'A']
    let val := decodeBase64 endSegment 0
    let ret := vals.foldl (fun (ret v : BitVec 32) => ret ||| (v >>> 31)) 0#32
    -- the last group carries two bytes: its unused bits have to be zero
    let ret := ret ||| ((val >>> 31) ||| (val &&& 0xff#32))
    if ret ≠ 0#32 then .error ⟨.base64, .contents⟩
    else .ok ⟨vals.flatMap groupBytes ++ (groupBytes val).take 2, by
      simp [vals, groupBytes, List.flatMap, List.range, List.range.loop]⟩

/-- The character of a six-bit value. -/
def encodeSextet (input : BitVec 32) : JChar :=
  charOfInt (input + 65#32
    + (((25#32 - input) >>> 8) &&& 6#32)
    - (((51#32 - input) >>> 8) &&& 75#32)
    - (((61#32 - input) >>> 8) &&& 15#32)
    + (((62#32 - input) >>> 8) &&& 3#32))

/-- `Key.encodeBase64`: three bytes as four characters. -/
def encodeBase64 (b₀ b₁ b₂ : BitVec 8) : JString :=
  let s₀ := b₀.signExtend 32
  let s₁ := b₁.signExtend 32
  let s₂ := b₂.signExtend 32
  [encodeSextet ((s₀ >>> 2) &&& 63#32),
    encodeSextet (((s₀ <<< 4) ||| ((s₁ &&& 0xff#32) >>> 4)) &&& 63#32),
    encodeSextet (((s₁ <<< 2) ||| ((s₂ &&& 0xff#32) >>> 6)) &&& 63#32),
    encodeSextet (s₂ &&& 63#32)]

/-- `Key.toBase64`. -/
def toBase64 (key : Key) : JString :=
  ((List.range 10).flatMap fun i =>
    encodeBase64 (key.bytes.getD (i * 3) 0) (key.bytes.getD (i * 3 + 1) 0)
      (key.bytes.getD (i * 3 + 2) 0))
    ++ (encodeBase64 (key.bytes.getD 30 0) (key.bytes.getD 31 0) 0#8).take 3 ++ [ch '=']

/-! ## Hexadecimal -/

/-- The value of one hexadecimal character and the error bits it adds. -/
def decodeNibble (c : BitVec 32) : BitVec 32 × BitVec 32 :=
  let cNum := c ^^^ 48#32
  let cNum0 := ((cNum - 10#32) >>> 8) &&& 0xff#32
  let cAlpha := (c &&& ~~~32#32) - 55#32
  let cAlpha0 := (((cAlpha - 10#32) ^^^ (cAlpha - 16#32)) >>> 8) &&& 0xff#32
  ((cNum0 &&& cNum) ||| (cAlpha0 &&& cAlpha), ((cNum0 ||| cAlpha0) - 1#32) >>> 8)

/-- `Key.fromHex`. -/
def fromHex (str : JString) : Except KeyFormatException Key :=
  if str.length ≠ KeyFormat.hex.length then .error ⟨.hex, .length⟩
  else
    let pairs := (List.range 32).map fun i =>
      (decodeNibble (intOfChar (str.getD (i * 2) 0)),
        decodeNibble (intOfChar (str.getD (i * 2 + 1) 0)))
    let ret := pairs.foldl (fun (ret : BitVec 32) p => ret ||| p.1.2 ||| p.2.2) 0#32
    if ret ≠ 0#32 then .error ⟨.hex, .contents⟩
    else .ok ⟨pairs.map fun p => (p.1.1 * 16#32 ||| p.2.1).truncate 8, by simp [pairs]⟩

/-- The character of a four-bit value. -/
def encodeNibble (n : BitVec 32) : JChar :=
  charOfInt (87#32 + n + ((n - 10#32).sshiftRight 8 &&& ~~~38#32))

/-- `Key.toHex`. -/
def toHex (key : Key) : JString :=
  key.bytes.flatMap fun b =>
    let x := b.signExtend 32
    [encodeNibble (x.sshiftRight 4 &&& 0xf#32), encodeNibble (x &&& 0xf#32)]

end Key
end AioVpn

import Mathlib.Algebra.BigOperators.Fin
import Mathlib.Data.Rat.Floor
import Mathlib.Tactic.FinCases

/-!
# `double`

What the code does with a `double`: literals and conversions from integers, the four
operations, `fabs`, comparisons, and the copy of its eight bytes. The classes below leave the
type open, so that a result about times read exactly is one about `ℚ`, and a result about
bytes holds for every type whose values are eight bytes.

`Binary64` is the type the code is compiled with on the supported targets: IEEE 754 binary64,
little-endian, rounding to nearest with ties to even.

## Main definitions

* `Double τ` and `DoubleToInt τ`: the operations, with the exact instances on `ℚ`;
* `DoubleBytes τ` and `LawfulDoubleBytes τ`: the object representation;
* `Binary64`, with instances of the four, and the rational that eight bytes stand for.
-/

namespace RealtimeUtilities

/-- The operations of the code on a `double`. -/
class Double (τ : Type) where
  /-- A literal, or an integer converted to `double`. -/
  ofRat : ℚ → τ
  add : τ → τ → τ
  sub : τ → τ → τ
  mul : τ → τ → τ
  div : τ → τ → τ
  /-- `std::fabs`. -/
  fabs : τ → τ
  /-- `a < b`, which is also `b > a`. -/
  lt : τ → τ → Bool
  /-- `a == b`. -/
  beq : τ → τ → Bool

/-- The conversion of a `double` to an integer type that holds the result. -/
class DoubleToInt (τ : Type) where
  /-- The integer part. -/
  toInt : τ → ℤ

/-- The eight bytes of a `double` in memory. -/
class DoubleBytes (τ : Type) where
  toBytes : τ → Fin 8 → UInt8
  ofBytes : (Fin 8 → UInt8) → τ

/-- A `double` is its eight bytes, and `0.0` is eight zero bytes. -/
class LawfulDoubleBytes (τ : Type) [Double τ] [DoubleBytes τ] : Prop where
  ofBytes_toBytes : ∀ x : τ, DoubleBytes.ofBytes (DoubleBytes.toBytes x) = x
  toBytes_ofBytes : ∀ b : Fin 8 → UInt8, DoubleBytes.toBytes (DoubleBytes.ofBytes b : τ) = b
  toBytes_zero : ∀ i, DoubleBytes.toBytes (Double.ofRat 0 : τ) i = 0

/-- Times read as exact rationals. -/
instance : Double ℚ where
  ofRat q := q
  add := (· + ·)
  sub := (· - ·)
  mul := (· * ·)
  div := (· / ·)
  fabs := abs
  lt a b := decide (a < b)
  beq a b := decide (a = b)

instance : DoubleToInt ℚ where
  toInt q := q.num.tdiv q.den

/-! ## IEEE 754 binary64 -/

/-- A `double`, as its sixty-four bits. -/
structure Binary64 where
  bits : BitVec 64
  deriving DecidableEq, Repr

namespace Binary64

/-- What sixty-four bits stand for. A finite value keeps its sign, for the two zeros. -/
inductive Value where
  | nan
  | inf (negative : Bool)
  | finite (negative : Bool) (q : ℚ)

/-- `q`, negated if `negative`. -/
def signed (negative : Bool) (q : ℚ) : ℚ :=
  if negative then -q else q

/-- The value of a `double`: sign bit, eleven bits of exponent, fifty-two of fraction. -/
def value (x : Binary64) : Value :=
  let negative := x.bits.getLsbD 63
  let exponent := (x.bits.extractLsb' 52 11).toNat
  let fraction := (x.bits.extractLsb' 0 52).toNat
  if exponent = 2047 then
    if fraction = 0 then .inf negative else .nan
  else if exponent = 0 then
    .finite negative (signed negative (fraction * 2 ^ (-1074 : ℤ)))
  else
    .finite negative (signed negative ((2 ^ 52 + fraction) * 2 ^ ((exponent : ℤ) - 1075)))

/-- The natural number nearest to `q ≥ 0`, the even one of two. -/
def roundHalfEven (q : ℚ) : ℕ :=
  let n := ⌊q⌋.toNat
  if q - n < 1 / 2 then n
  else if 1 / 2 < q - n then n + 1
  else if n % 2 = 0 then n else n + 1

/-- The exponent `e` of `q > 0`: `2 ^ e ≤ q < 2 ^ (e + 1)`. -/
def exponentOf (q : ℚ) : ℤ :=
  let e := (q.num.toNat.log2 : ℤ) - q.den.log2
  if (2 : ℚ) ^ e ≤ q then e else e - 1

/-- The sixty-four bits with the given sign and the low bits `magnitude`. -/
def pack (negative : Bool) (magnitude : ℕ) : Binary64 :=
  ⟨BitVec.ofNat 64 ((if negative then 2 ^ 63 else 0) + magnitude)⟩

/-- An infinity. -/
def infinity (negative : Bool) : Binary64 :=
  pack negative (2047 * 2 ^ 52)

/-- A quiet NaN. -/
def nan : Binary64 :=
  pack false (2047 * 2 ^ 52 + 2 ^ 51)

/-- The `double` nearest to `q`, which has the given sign if it is not zero. A significand that
rounds up to `2 ^ 53` carries into the exponent, and what is too large becomes infinite. -/
def round (negative : Bool) (q : ℚ) : Binary64 :=
  if q = 0 then pack negative 0
  else
    -- the weight of the last bit, not below that of the subnormal numbers
    let unit := max (-1074) (exponentOf |q| - 52)
    let magnitude := (unit + 1074).toNat * 2 ^ 52 + roundHalfEven (|q| / 2 ^ unit)
    if 2047 * 2 ^ 52 ≤ magnitude then infinity negative else pack negative magnitude

def ofRat (q : ℚ) : Binary64 :=
  round (q < 0) q

def add (x y : Binary64) : Binary64 :=
  match x.value, y.value with
  | .nan, _ | _, .nan => nan
  | .inf s, .inf t => if s = t then infinity s else nan
  | .inf s, .finite _ _ | .finite _ _, .inf s => infinity s
  | .finite s a, .finite t b =>
      -- an exact zero is negative only if both operands are
      if a + b = 0 then pack (s && t) 0 else round (a + b < 0) (a + b)

def neg (x : Binary64) : Binary64 :=
  ⟨x.bits ^^^ BitVec.twoPow 64 63⟩

def sub (x y : Binary64) : Binary64 :=
  x.add y.neg

def mul (x y : Binary64) : Binary64 :=
  match x.value, y.value with
  | .nan, _ | _, .nan => nan
  | .inf s, .inf t => infinity (s ^^ t)
  | .inf s, .finite t b | .finite t b, .inf s => if b = 0 then nan else infinity (s ^^ t)
  | .finite s a, .finite t b => round (s ^^ t) (a * b)

def div (x y : Binary64) : Binary64 :=
  match x.value, y.value with
  | .nan, _ | _, .nan => nan
  | .inf _, .inf _ => nan
  | .inf s, .finite t _ => infinity (s ^^ t)
  | .finite s _, .inf t => pack (s ^^ t) 0
  | .finite s a, .finite t b =>
      if b = 0 then if a = 0 then nan else infinity (s ^^ t)
      else round (s ^^ t) (a / b)

def fabs (x : Binary64) : Binary64 :=
  ⟨x.bits &&& ~~~BitVec.twoPow 64 63⟩

def lt (x y : Binary64) : Bool :=
  match x.value, y.value with
  | .nan, _ | _, .nan => false
  | .inf s, .inf t => s && !t
  | .inf s, .finite _ _ => s
  | .finite _ _, .inf t => !t
  | .finite _ a, .finite _ b => a < b

def beq (x y : Binary64) : Bool :=
  match x.value, y.value with
  | .inf s, .inf t => s == t
  | .finite _ a, .finite _ b => a == b
  | _, _ => false

instance : Double Binary64 where
  ofRat := ofRat
  add := add
  sub := sub
  mul := mul
  div := div
  fabs := fabs
  lt := lt
  beq := beq

instance : DoubleToInt Binary64 where
  toInt x :=
    match x.value with
    | .finite _ q => DoubleToInt.toInt q
    -- no integer type holds the others
    | _ => 0

/-- Little-endian: byte `i` holds the bits from `8 * i` on. -/
instance : DoubleBytes Binary64 where
  toBytes x i := .ofNat (x.bits.toNat / 256 ^ i.val)
  ofBytes b := ⟨BitVec.ofNat 64 (∑ i, (b i).toNat * 256 ^ i.val)⟩

theorem ofBytes_toBytes (x : Binary64) :
    DoubleBytes.ofBytes (DoubleBytes.toBytes x) = x := by
  obtain ⟨bits⟩ := x
  have hlt : bits.toNat < 2 ^ 64 := bits.isLt
  have hsum : ∑ i : Fin 8, (UInt8.ofNat (bits.toNat / 256 ^ i.val)).toNat * 256 ^ i.val =
      bits.toNat := by
    simp only [UInt8.toNat_ofNat', Fin.sum_univ_eight, Fin.isValue]
    simp
    omega
  simp only [DoubleBytes.ofBytes, DoubleBytes.toBytes, hsum, BitVec.ofNat_toNat,
    BitVec.setWidth_eq]

theorem toBytes_ofBytes (b : Fin 8 → UInt8) :
    DoubleBytes.toBytes (DoubleBytes.ofBytes b : Binary64) = b := by
  have hlt : ∀ i, (b i).toNat < 256 := fun i => (b i).toNat_lt
  funext i
  apply UInt8.toNat_inj.mp
  simp only [DoubleBytes.ofBytes, DoubleBytes.toBytes, UInt8.toNat_ofNat', BitVec.toNat_ofNat,
    Fin.sum_univ_eight]
  have h0 := hlt 0
  have h1 := hlt 1
  have h2 := hlt 2
  have h3 := hlt 3
  have h4 := hlt 4
  have h5 := hlt 5
  have h6 := hlt 6
  have h7 := hlt 7
  fin_cases i <;> simp <;> omega

/-- `0.0` is eight zero bytes. -/
theorem toBytes_zero (i : Fin 8) : DoubleBytes.toBytes (Double.ofRat 0 : Binary64) i = 0 := by
  have hzero : (Double.ofRat 0 : Binary64) = ⟨0⟩ := by
    show ofRat 0 = ⟨0⟩
    simp [ofRat, round, pack]
  rw [hzero]
  simp [DoubleBytes.toBytes]

instance : LawfulDoubleBytes Binary64 where
  ofBytes_toBytes := ofBytes_toBytes
  toBytes_ofBytes := toBytes_ofBytes
  toBytes_zero := toBytes_zero

/-- Read exactly, eight bytes are the rational that the `double` stands for, if it is finite. -/
instance : DoubleBytes ℚ where
  toBytes q := DoubleBytes.toBytes (ofRat q)
  ofBytes b :=
    match (DoubleBytes.ofBytes b : Binary64).value with
    | .finite _ q => q
    | _ => 0

end Binary64

end RealtimeUtilities

/-
  The floating-point instructions (`m68kfpu.c`).

  * `SoftFloat`: the arithmetic, which is a parameter;
  * `operate`: what each opmode makes of a source;
  * `fpgenRmReg`, `fmoveRegMem`, `fscc`, `fbcc16`, `fbcc32`: the instructions;
  * `fpuOp0`: which instruction an opcode with its extension word is.
-/
import CuteMac.Fpu.PackedDecimal
import CuteMac.Fpu.StateFrame

namespace CuteMac.Fpu

open ByteMemory Core

/-- The functions of the host's library. -/
inductive LibmFunction where
  | sin | cos | sinh | log1p | expm1 | tanh | atan | asin | atanh | tan | exp | exp2 | pow10
  | log | log10 | log2 | cosh | acos
  deriving DecidableEq, Repr

/-- The arithmetic of two operands. -/
inductive BinaryFunction where
  | div | rem | add | mul | sub
  deriving DecidableEq, Repr

/-- What is computed with numbers: each function takes the rounding mode first where it rounds,
    and gives the exceptions that it raises with its value. -/
structure SoftFloat where
  int32ToFloatx80 : UInt32 → Floatx80
  /-- an integer of 16 bits through a double -/
  int16ToFloatx80 : UInt16 → Floatx80
  float32ToFloatx80 : UInt32 → Floatx80 × UInt8
  float64ToFloatx80 : UInt64 → Floatx80 × UInt8
  packToFloatx80 : List UInt8 → Floatx80
  floatx80ToInt32 : UInt32 → Floatx80 → UInt32 × UInt8
  floatx80ToInt32RoundToZero : Floatx80 → UInt32 × UInt8
  floatx80ToFloat32 : UInt32 → Floatx80 → UInt32 × UInt8
  floatx80ToFloat64 : UInt32 → Floatx80 → UInt64 × UInt8
  /-- the text of a double (`%.16e`) -/
  text : UInt64 → List UInt8
  /-- what a packed store leaves where it goes beyond its text -/
  strayPack : UInt64 → UInt32 → List UInt8
  sqrt : UInt32 → Floatx80 → Floatx80 × UInt8
  binary : BinaryFunction → UInt32 → Floatx80 → Floatx80 → Floatx80 × UInt8
  libm : LibmFunction → UInt32 → Floatx80 → Floatx80 × UInt8
  /-- `ldexp` through a double -/
  ldexp : UInt32 → Floatx80 → UInt32 → Floatx80 × UInt8
  roundToSingle : UInt32 → Floatx80 → Floatx80 × UInt8
  roundToDouble : UInt32 → Floatx80 → Floatx80 × UInt8
  /-- the constant ROM, by the offset -/
  constantRom : UInt32 → UInt16 → Floatx80 × UInt8
  deriving Inhabited

/-- The bytes of a packed number, through the text of a double. -/
def SoftFloat.floatx80ToPack (arith : SoftFloat) (mode k : UInt32) (x : Floatx80) :
    List UInt8 × UInt8 :=
  let d := arith.floatx80ToFloat64 mode x
  (match storePackFloat80 (arith.text d.1 ++ [0]) k.toInt32.toInt with
    | some packed => packed.bytes
    | none => arith.strayPack d.1 k, d.2)

namespace Floatx80

def exponent (x : Floatx80) : UInt16 := x.high &&& 0x7fff
def isNan (x : Floatx80) : Bool := x.exponent == 0x7fff && x.low <<< 1 != 0
def isZero (x : Floatx80) : Bool := x.exponent == 0 && x.low <<< 1 == 0
def isInf (x : Floatx80) : Bool := x.exponent == 0x7fff && x.low <<< 1 == 0
def negative (x : Floatx80) : Bool := x.high &&& 0x8000 != 0

end Floatx80

/-- What an operation leaves of the registers: the exceptions of the arithmetic wait in `flags`. -/
structure Outcome where
  fp : Fin 8 → Floatx80
  fpsr : UInt32
  flags : UInt8

namespace Outcome

def fpccMask : UInt32 := 0x0f000000

def conditionCodes (x : Floatx80) : UInt32 :=
  (if x.negative then (0x08000000 : UInt32) else 0) ||| (if x.isZero then 0x04000000 else 0) |||
    (if x.isInf then 0x02000000 else 0) ||| (if x.isNan then 0x01000000 else 0)

def setConditionCodes (o : Outcome) (x : Floatx80) : Outcome :=
  { o with fpsr := (o.fpsr &&& ~~~fpccMask) ||| conditionCodes x }

/-- The accrued exceptions, which stay. -/
def updateAccruedExceptions (fpsr : UInt32) : UInt32 :=
  let fpsr := if fpsr &&& 0x0000e000 ≠ 0 then fpsr ||| 0x80 else fpsr
  let fpsr := if fpsr &&& 0x00001000 ≠ 0 then fpsr ||| 0x40 else fpsr
  let fpsr := if fpsr &&& 0x00000800 ≠ 0 ∧ fpsr &&& 0x00000200 ≠ 0 then fpsr ||| 0x20 else fpsr
  let fpsr := if fpsr &&& 0x00000400 ≠ 0 then fpsr ||| 0x10 else fpsr
  if fpsr &&& 0x00001300 ≠ 0 then fpsr ||| 0x08 else fpsr

def exceptionBits (flags : UInt8) : UInt32 :=
  (if flags &&& 1 ≠ 0 then (0x2000 : UInt32) else 0) ||| (if flags &&& 4 ≠ 0 then 0x0400 else 0) |||
    (if flags &&& 8 ≠ 0 then 0x1000 else 0) ||| (if flags &&& 16 ≠ 0 then 0x0800 else 0) |||
    (if flags &&& 32 ≠ 0 then 0x0200 else 0)

def setExceptionFlags (o : Outcome) : Outcome :=
  { o with
    fpsr := updateAccruedExceptions ((o.fpsr &&& ~~~(0x00007f00 : UInt32)) ||| exceptionBits o.flags)
    flags := 0 }

def setOperrIfNan (o : Outcome) (result source : Floatx80) : Outcome :=
  let fpsr := o.fpsr &&& ~~~(0x00002200 : UInt32)
  { o with
    fpsr := updateAccruedExceptions
      (if result.isNan && !source.isNan then fpsr ||| 0x2000 else fpsr) }

/-- A result goes to its register, with the exceptions it has raised. -/
def store (o : Outcome) (dst : Fin 8) (result : Floatx80 × UInt8) : Outcome :=
  { o with fp := Function.update o.fp dst result.1, flags := o.flags ||| result.2 }

/-- A result that only the condition codes tell of. -/
def plain (o : Outcome) (dst : Fin 8) (result : Floatx80 × UInt8) : Outcome :=
  (o.store dst result).setConditionCodes result.1

def arithmetic (o : Outcome) (dst : Fin 8) (result : Floatx80 × UInt8) : Outcome :=
  (o.store dst result).setExceptionFlags.setConditionCodes result.1

def transcendental (o : Outcome) (dst : Fin 8) (source : Floatx80) (result : Floatx80 × UInt8) :
    Outcome :=
  ((o.store dst result).setOperrIfNan result.1 source).setConditionCodes result.1

end Outcome

open Outcome

/-- The opmodes of the library's functions that can fail, by their codes. -/
def libmOpmode : Nat → Option LibmFunction
  | 0x02 => some .sinh
  | 0x06 => some .log1p
  | 0x08 => some .expm1
  | 0x09 => some .tanh
  | 0x0a => some .atan
  | 0x0c => some .asin
  | 0x0d => some .atanh
  | 0x0f => some .tan
  | 0x10 => some .exp
  | 0x11 => some .exp2
  | 0x12 => some .pow10
  | 0x14 => some .log
  | 0x15 => some .log10
  | 0x16 => some .log2
  | 0x19 => some .cosh
  | 0x1c => some .acos
  | _ => none

/-- FCMP with an infinity, which the subtraction would not tell apart. -/
def compareInfinities (o : Outcome) (d s : Floatx80) : Outcome :=
  let fpsr := o.fpsr &&& ~~~fpccMask
  let codes : UInt32 :=
    if s.isInf && s.negative then (if d.isInf && d.negative then 0x0c000000 else 0)
    else if s.isInf then (if d.isInf && !d.negative then 0x04000000 else 0x08000000)
    else if d.isInf && d.negative then 0x08000000
    else 0
  { o with fpsr := fpsr ||| codes }

/-- FSCALE by the exponent, or by the library where that does not do. -/
def scale (arith : SoftFloat) (mode : UInt32) (x source : Floatx80) : Floatx80 × UInt8 :=
  let factor := arith.floatx80ToInt32RoundToZero source
  if x.exponent ≠ 0 ∨ x.low ≠ 0 then
    let exponent : Int := x.exponent.toNat + factor.1.toInt32.toInt
    if 0 < exponent ∧ exponent < 0x7fff then
      (⟨(x.high &&& 0x8000) ||| UInt16.ofNat exponent.toNat, x.low⟩, factor.2)
    else
      let result := arith.ldexp mode x factor.1
      (result.1, factor.2 ||| result.2)
  else (x, factor.2)

/-- An operation on a register and a source; `none` where the opmode is not known. -/
def operate (arith : SoftFloat) (mode : UInt32) (opmode : Nat) (dst : Fin 8) (source : Floatx80)
    (o : Outcome) : Option Outcome :=
  let x := o.fp dst
  match opmode with
  | 0x00 => some (o.plain dst (source, 0))
  | 0x01 =>
    let temp := arith.floatx80ToInt32 mode source
    some (o.plain dst (arith.int32ToFloatx80 temp.1, temp.2))
  | 0x03 =>
    let temp := arith.floatx80ToInt32RoundToZero source
    some (o.plain dst (arith.int32ToFloatx80 temp.1, temp.2))
  | 0x04 => some (o.arithmetic dst (arith.sqrt mode source))
  | 0x0e => some (o.plain dst (arith.libm .sin mode source))
  | 0x18 => some (o.plain dst (⟨source.high &&& 0x7fff, source.low⟩, 0))
  | 0x1a => some (o.plain dst (⟨source.high ^^^ 0x8000, source.low⟩, 0))
  | 0x1d => some (o.plain dst (arith.libm .cos mode source))
  | 0x1e =>
    some (o.plain dst (arith.int16ToFloatx80 (source.exponent - 0x3fff), 0))
  | 0x1f =>
    some (o.plain dst
      (if source.exponent ≠ 0 ∨ source.low ≠ 0 then ⟨(source.high &&& 0x8000) ||| 0x3fff, source.low⟩
        else source, 0))
  | 0x20 => some (o.arithmetic dst (arith.binary .div mode x source))
  | 0x21 => some (o.arithmetic dst (arith.binary .rem mode x source))
  | 0x22 => some (o.arithmetic dst (arith.binary .add mode x source))
  | 0x23 => some (o.arithmetic dst (arith.binary .mul mode x source))
  | 0x24 =>
    let quotient := arith.binary .div mode x source
    let single := arith.roundToSingle mode quotient.1
    some (o.plain dst (single.1, quotient.2 ||| single.2))
  | 0x25 => some (o.arithmetic dst (arith.binary .rem mode x source))
  | 0x26 => some (o.plain dst (scale arith mode x source))
  | 0x27 =>
    let product := arith.binary .mul mode x source
    let single := arith.roundToSingle mode product.1
    some (o.plain dst (single.1, product.2 ||| single.2))
  | 0x28 => some (o.arithmetic dst (arith.binary .sub mode x source))
  | 0x38 =>
    if !x.isNan && !source.isNan && (x.isInf || source.isInf) then
      some (compareInfinities o x source)
    else
      let difference := arith.binary .sub mode x source
      some { o.setConditionCodes difference.1 with flags := o.flags ||| difference.2 }
  | 0x3a => some (o.setConditionCodes source)
  | n =>
    if 0x30 ≤ n ∧ n ≤ 0x37 then
      let o := o.store dst (arith.libm .sin mode source)
      let o := o.store (Fin.ofNat 8 n) (arith.libm .cos mode source)
      some (o.setConditionCodes (o.fp dst))
    else (libmOpmode n).map fun f => o.transcendental dst source (arith.libm f mode source)

namespace M68kiCpu

def outcome (s : M68kiCpu) : Outcome := ⟨s.fp, s.fpsr, s.floatExceptionFlags⟩

def setOutcome (s : M68kiCpu) (o : Outcome) : M68kiCpu :=
  { s with fp := o.fp, fpsr := o.fpsr, floatExceptionFlags := o.flags }

/-- The arithmetic has raised exceptions. -/
def raise (s : M68kiCpu) (flags : UInt8) : M68kiCpu :=
  { s with floatExceptionFlags := s.floatExceptionFlags ||| flags }

variable (arith : SoftFloat)

/-! ## The general form -/

/-- The source of a general operation, by its format. -/
def readSource (s : M68kiCpu) (src : Nat) (ea : UInt16) : Floatx80 × M68kiCpu :=
  match src with
  | 0 =>
    let d := s.readEa32 ea
    (arith.int32ToFloatx80 d.1, d.2)
  | 1 =>
    let d := s.readEa32 ea
    ((arith.float32ToFloatx80 d.1).1, d.2.raise (arith.float32ToFloatx80 d.1).2)
  | 2 =>
    let di := s.diModeEa ea
    di.2.readEaFpe ea di.1
  | 3 =>
    let pack := s.readEaPack ea
    ((pack.1.map arith.packToFloatx80).getD ⟨0, 0⟩, pack.2)
  | 4 =>
    let d := s.readEa16 ea
    (arith.int32ToFloatx80 (signed16 d.1), d.2)
  | 5 =>
    let d := s.readEa64 ea
    ((arith.float64ToFloatx80 d.1).1, d.2.raise (arith.float64ToFloatx80 d.1).2)
  | _ =>
    let d := s.readEa8 ea
    (arith.int32ToFloatx80 (signed8 d.1), d.2)

/-- The precision that an opmode asks for, and the operation without it. -/
def opmodeRounding (opmode : UInt16) : Nat × UInt16 :=
  if opmode &&& 0x44 = 0x44 then (2, opmode &&& ~~~(0x44 : UInt16))
  else if opmode &&& 0x40 ≠ 0 then (1, opmode &&& ~~~(0x40 : UInt16))
  else (0, opmode)

/-- The precision of the instruction, or else that of FPCR. -/
def rounding (s : M68kiCpu) (opmode : UInt16) : Nat :=
  if (opmodeRounding opmode).1 = 0 then ((s.fpcr >>> 6) &&& 3).toNat else (opmodeRounding opmode).1

/-- The register of the result is rounded, whatever the operation has done. -/
def roundResult (s : M68kiCpu) (round : Nat) (dst : Fin 8) : M68kiCpu :=
  match round with
  | 1 =>
    let result := arith.roundToSingle s.floatRoundingMode (s.fp dst)
    (s.setFp dst result.1).raise result.2
  | 2 =>
    let result := arith.roundToDouble s.floatRoundingMode (s.fp dst)
    (s.setFp dst result.1).raise result.2
  | _ => s

def fpgenRmReg (s : M68kiCpu) (w2 : UInt16) : M68kiCpu :=
  let rm := (w2 >>> 14) &&& 1
  let src := ((w2 >>> 10) &&& 7).toNat
  let dst := Fin.ofNat 8 ((w2 >>> 7) &&& 7).toNat
  let opmode := w2 &&& 0x7f
  if rm ≠ 0 ∧ src = 7 then
    s.setOutcome (s.outcome.plain dst (arith.constantRom s.floatRoundingMode opmode))
  else
    let read := if rm ≠ 0 then s.readSource arith src s.ea else (s.fp (Fin.ofNat 8 src), s)
    let s := read.2
    let s :=
      match operate arith s.floatRoundingMode (opmodeRounding opmode).2.toNat dst read.1 s.outcome with
      | some o => s.setOutcome o
      | none => s.fpuReport
    s.roundResult arith (s.rounding opmode) dst

/-! ## Stores -/

def fmoveRegMem (s : M68kiCpu) (w2 : UInt16) : M68kiCpu :=
  let ea := s.ea
  let x := s.fp (Fin.ofNat 8 ((w2 >>> 7) &&& 7).toNat)
  let k := w2 &&& 0x7f
  match ((w2 >>> 10) &&& 7).toNat with
  | 0 =>
    let d := arith.floatx80ToInt32 s.floatRoundingMode x
    (s.raise d.2).writeEa32 ea d.1
  | 1 =>
    let d := arith.floatx80ToFloat32 s.floatRoundingMode x
    (s.raise d.2).writeEa32 ea d.1
  | 2 =>
    let di := s.diModeEa ea
    di.2.writeEaFpe ea x di.1
  | 3 =>
    let k := if k &&& 0x40 ≠ 0 then signed16 (k ||| 0xff80) else k.toUInt32
    s.writeEaPack ea (arith.floatx80ToPack s.floatRoundingMode k x)
  | 4 =>
    let d := arith.floatx80ToInt32 s.floatRoundingMode x
    (s.raise d.2).writeEa16 ea d.1.toUInt16
  | 5 =>
    let d := arith.floatx80ToFloat64 s.floatRoundingMode x
    (s.raise d.2).writeEa64 ea d.1
  | 6 =>
    let d := arith.floatx80ToInt32 s.floatRoundingMode x
    (s.raise d.2).writeEa8 ea d.1.toUInt8
  | _ =>
    let k := s.d (Fin.ofNat 8 (k >>> 4).toNat)
    s.writeEaPack ea (arith.floatx80ToPack s.floatRoundingMode k x)

/-! ## Conditions -/

/-- The conditions are known up to `0x1f`; another one is reported, and does not hold. -/
def testCondition (s : M68kiCpu) (condition : UInt16) : Bool × M68kiCpu :=
  let n := s.fpsr &&& 0x08000000 != 0
  let z := s.fpsr &&& 0x04000000 != 0
  let nan := s.fpsr &&& 0x01000000 != 0
  if 0x20 ≤ condition then (false, s.fpuReport)
  else
    (match (condition &&& 0x0f).toNat with
      | 0x0 => false
      | 0x1 => z
      | 0x2 => !(nan || z || n)
      | 0x3 => z || !(nan || n)
      | 0x4 => n && !(nan || z)
      | 0x5 => z || (n && !nan)
      | 0x6 => !nan && !z
      | 0x7 => !nan
      | 0x8 => nan
      | 0x9 => nan || z
      | 0xa => nan || !(n || z)
      | 0xb => nan || z || !n
      | 0xc => nan || (n && !z)
      | 0xd => nan || z || n
      | 0xe => !z
      | _ => true, s)

def fscc (s : M68kiCpu) : M68kiCpu :=
  let word := s.readImm16
  let cc := word.2.testCondition (word.1 &&& 0x3f)
  let s := cc.2
  let v : UInt8 := if cc.1 then 0xff else 0
  let reg := eaReg s.ir
  match eaMode s.ir with
  | 0 => s.setD reg ((s.d reg &&& 0xffffff00) ||| v.toUInt32)
  | 5 =>
    let address := s.eaAyDi reg
    address.2.write8 address.1 v
  | _ => s.fpuReport

def fbcc16 (s : M68kiCpu) : M68kiCpu :=
  let offset := s.readImm16
  let cc := offset.2.testCondition (s.ir &&& 0x3f)
  if cc.1 then { cc.2 with pc := cc.2.pc + signed16 (offset.1 - 2) } else cc.2

def fbcc32 (s : M68kiCpu) : M68kiCpu :=
  let offset := s.readImm32
  let cc := offset.2.testCondition (s.ir &&& 0x3f)
  if cc.1 then { cc.2 with pc := cc.2.pc + (offset.1 - 4) } else cc.2

/-! ## The instructions -/

/-- The general instructions, by the high bits of the extension word. -/
def general (s : M68kiCpu) (w2 : UInt16) : M68kiCpu :=
  match ((w2 >>> 13) &&& 7).toNat with
  | 0 | 2 => s.fpgenRmReg arith w2
  | 3 => s.fmoveRegMem arith w2
  | 4 | 5 => s.fmoveFpcr w2
  | 6 | 7 => s.fmovem w2
  | _ => s.fpuReport

def fpuOp0 (s : M68kiCpu) : M68kiCpu :=
  let form := (s.ir >>> 6) &&& 3
  let s := { s with fpuJustReset := false, fpiar := s.ppc }
  if form = 0 then s.readImm16.2.general arith s.readImm16.1
  else if form = 1 then s.fscc
  else if form = 2 then s.fbcc16
  else s.fbcc32

/-- The instruction at the address `ppc`, whose first word has been read: without a coprocessor
    it is refused. -/
def execute (s : M68kiCpu) : M68kiCpu :=
  if s.fpuModel = .none then s.exception1111
  else if s.ir &&& 0xff00 = 0xf200 then s.fpuOp0 arith
  else s.fpuOp1

end M68kiCpu

end CuteMac.Fpu

/-
  Integer addition, subtraction and comparison (`m68kops.c`), for operands of each size.

  * `Size`: bytes, words and long words, with the flag macros of `m68kcpu.h` for each;
  * `add`, `sub`, `cmp`, `addx`, `subx`, `neg`, `negx`: the result, and the flags it leaves;
  * `opAddErD`, `opCmpD`, `opAddxMm`, …: the instructions on registers and on memory;
  * `Condition`, `holds`: the conditions of a branch (`COND_HI`, …).
-/
import CuteMac.M68k.M68kCpu

namespace CuteMac.M68k

inductive Size where
  | byte
  | word
  | long
  deriving DecidableEq, Repr

namespace Size

def bytes : Size → Nat
  | byte => 1
  | word => 2
  | long => 4

def bits (z : Size) : Nat := 8 * z.bytes

def mask : Size → UInt32
  | byte => 0xff
  | word => 0xffff
  | long => 0xffffffff

/-- The bits above the low eight. -/
def shift : Size → UInt32
  | byte => 0
  | word => 8
  | long => 24

def maskOutAbove (z : Size) (a : UInt32) : UInt32 := a &&& z.mask
def maskOutBelow (z : Size) (a : UInt32) : UInt32 := a &&& ~~~z.mask

def nflag (z : Size) (a : UInt32) : UInt32 := a >>> z.shift

def vflagAdd (z : Size) (s d r : UInt32) : UInt32 := ((s ^^^ r) &&& (d ^^^ r)) >>> z.shift
def vflagSub (z : Size) (s d r : UInt32) : UInt32 := ((s ^^^ d) &&& (r ^^^ d)) >>> z.shift

def cflagAdd : Size → UInt32 → UInt32 → UInt32 → UInt32
  | byte, _, _, r => r
  | word, _, _, r => r >>> 8
  | long, s, d, r => ((s &&& d) ||| (~~~r &&& (s ||| d))) >>> 23

def cflagSub : Size → UInt32 → UInt32 → UInt32 → UInt32
  | byte, _, _, r => r
  | word, _, _, r => r >>> 8
  | long, s, d, r => ((s &&& r) ||| (~~~d &&& (s ||| r))) >>> 23

end Size

namespace M68kiCpu

def xflagAs1 (s : M68kiCpu) : UInt32 := (s.xFlag >>> 8) &&& 1

/-! ## Results and flags -/

section
variable (z : Size) (s : M68kiCpu) (src dst : UInt32)

def add : UInt32 × M68kiCpu :=
  let res := src + dst
  (z.maskOutAbove res, { s with
    nFlag := z.nflag res
    vFlag := z.vflagAdd src dst res
    xFlag := z.cflagAdd src dst res
    cFlag := z.cflagAdd src dst res
    notZFlag := z.maskOutAbove res })

def sub : UInt32 × M68kiCpu :=
  let res := dst - src
  (z.maskOutAbove res, { s with
    nFlag := z.nflag res
    xFlag := z.cflagSub src dst res
    cFlag := z.cflagSub src dst res
    vFlag := z.vflagSub src dst res
    notZFlag := z.maskOutAbove res })

def cmp : M68kiCpu :=
  let res := dst - src
  { s with
    nFlag := z.nflag res
    notZFlag := z.maskOutAbove res
    vFlag := z.vflagSub src dst res
    cFlag := z.cflagSub src dst res }

/-- The flag `Z` is only ever cleared, so that it tells of a number of several parts. -/
def addx : UInt32 × M68kiCpu :=
  let res := src + dst + s.xflagAs1
  (z.maskOutAbove res, { s with
    nFlag := z.nflag res
    vFlag := z.vflagAdd src dst res
    xFlag := z.cflagAdd src dst res
    cFlag := z.cflagAdd src dst res
    notZFlag := s.notZFlag ||| z.maskOutAbove res })

def subx : UInt32 × M68kiCpu :=
  let res := dst - src - s.xflagAs1
  (z.maskOutAbove res, { s with
    nFlag := z.nflag res
    xFlag := z.cflagSub src dst res
    cFlag := z.cflagSub src dst res
    vFlag := z.vflagSub src dst res
    notZFlag := s.notZFlag ||| z.maskOutAbove res })

/-- The overflow of a negation looks at the whole of the operand's register. -/
def neg : UInt32 × M68kiCpu :=
  let res := 0 - z.maskOutAbove src
  (z.maskOutAbove res, { s with
    nFlag := z.nflag res
    cFlag := z.cflagSub src 0 res
    xFlag := z.cflagSub src 0 res
    vFlag := (src &&& res) >>> z.shift
    notZFlag := z.maskOutAbove res })

def negx : UInt32 × M68kiCpu :=
  let res := 0 - z.maskOutAbove src - s.xflagAs1
  (z.maskOutAbove res, { s with
    nFlag := z.nflag res
    xFlag := z.cflagSub src 0 res
    cFlag := z.cflagSub src 0 res
    vFlag := (src &&& res) >>> z.shift
    notZFlag := s.notZFlag ||| z.maskOutAbove res })

end

/-! ## Operands -/

/-- The register in bits 9 to 11 of the instruction, and the one in its low bits. -/
def regX (s : M68kiCpu) : Nat := ((s.ir >>> 9) &&& 7).toNat
def regY (s : M68kiCpu) : Nat := (s.ir &&& 7).toNat

def dataX (s : M68kiCpu) : Fin 16 := Fin.ofNat 16 s.regX
def dataY (s : M68kiCpu) : Fin 16 := Fin.ofNat 16 s.regY
def addressX (s : M68kiCpu) : Fin 16 := Fin.ofNat 16 (8 + s.regX)
def addressY (s : M68kiCpu) : Fin 16 := Fin.ofNat 16 (8 + s.regY)

/-- The low part of a register is replaced. -/
def setLow (z : Size) (s : M68kiCpu) (reg : Fin 16) (value : UInt32) : M68kiCpu :=
  s.setDar reg (z.maskOutBelow (s.dar reg) ||| value)

def readSize (s : M68kiCpu) (z : Size) (address : UInt32) : UInt32 :=
  match z with
  | .byte => s.read8 address
  | .word => s.read16 address
  | .long => s.read32 address

def writeSize (s : M68kiCpu) (z : Size) (address value : UInt32) : M68kiCpu :=
  s.writeBytes address value z.bytes

/-- How far an address register moves for an operand; the stack pointer stays even. -/
def stride (z : Size) (reg : Fin 16) : UInt32 :=
  if z = .byte ∧ reg = 15 then 2 else UInt32.ofNat z.bytes

/-- An address register goes down by one operand, and is the operand's address. -/
def predecrement (z : Size) (s : M68kiCpu) (reg : Fin 16) : UInt32 × M68kiCpu :=
  let ea := s.dar reg - stride z reg
  (ea, s.setDar reg ea)

/-- An address register goes up by one operand, from the operand's address. -/
def postincrement (z : Size) (s : M68kiCpu) (reg : Fin 16) : UInt32 × M68kiCpu :=
  (s.dar reg, s.setDar reg (s.dar reg + stride z reg))

/-! ## Instructions -/

/-- An operation of two data registers. -/
def opRr (z : Size) (s : M68kiCpu)
    (f : Size → M68kiCpu → UInt32 → UInt32 → UInt32 × M68kiCpu) : M68kiCpu :=
  let r := f z s (z.maskOutAbove (s.dar s.dataY)) (z.maskOutAbove (s.dar s.dataX))
  setLow z r.2 s.dataX r.1

/-- An operation on memory below two address registers. -/
def opMm (z : Size) (s : M68kiCpu)
    (f : Size → M68kiCpu → UInt32 → UInt32 → UInt32 × M68kiCpu) : M68kiCpu :=
  let y := predecrement z s s.addressY
  let src := y.2.readSize z y.1
  let x := predecrement z y.2 y.2.addressX
  let dst := x.2.readSize z x.1
  let r := f z x.2 src dst
  r.2.writeSize z x.1 r.1

/-- `m68k_op_add_8_er_d`, `m68k_op_add_16_er_d`, `m68k_op_add_32_er_d`. -/
def opAddErD (z : Size) (s : M68kiCpu) : M68kiCpu := opRr z s add

/-- `m68k_op_sub_8_er_d`, `m68k_op_sub_16_er_d`, `m68k_op_sub_32_er_d`. -/
def opSubErD (z : Size) (s : M68kiCpu) : M68kiCpu := opRr z s sub

/-- `m68k_op_addx_8_rr`, `m68k_op_addx_16_rr`, `m68k_op_addx_32_rr`. -/
def opAddxRr (z : Size) (s : M68kiCpu) : M68kiCpu := opRr z s addx

/-- `m68k_op_subx_8_rr`, `m68k_op_subx_16_rr`, `m68k_op_subx_32_rr`. -/
def opSubxRr (z : Size) (s : M68kiCpu) : M68kiCpu := opRr z s subx

/-- `m68k_op_addx_8_mm`, `m68k_op_addx_16_mm`, `m68k_op_addx_32_mm`, and `m68k_op_addx_8_mm_ax7`
    with the others for the stack pointer. -/
def opAddxMm (z : Size) (s : M68kiCpu) : M68kiCpu := opMm z s addx

/-- `m68k_op_subx_8_mm`, `m68k_op_subx_16_mm`, `m68k_op_subx_32_mm`, and `m68k_op_subx_8_mm_ax7`
    with the others for the stack pointer. -/
def opSubxMm (z : Size) (s : M68kiCpu) : M68kiCpu := opMm z s subx

/-- `m68k_op_neg_8_d`, `m68k_op_neg_16_d`, `m68k_op_neg_32_d`. -/
def opNegD (z : Size) (s : M68kiCpu) : M68kiCpu :=
  let r := neg z s (s.dar s.dataY)
  setLow z r.2 s.dataY r.1

/-- `m68k_op_negx_8_d`, `m68k_op_negx_16_d`, `m68k_op_negx_32_d`. -/
def opNegxD (z : Size) (s : M68kiCpu) : M68kiCpu :=
  let r := negx z s (s.dar s.dataY)
  setLow z r.2 s.dataY r.1

/-- `m68k_op_cmp_8_d`, `m68k_op_cmp_16_d`, `m68k_op_cmp_32_d`. -/
def opCmpD (z : Size) (s : M68kiCpu) : M68kiCpu :=
  cmp z s (z.maskOutAbove (s.dar s.dataY)) (z.maskOutAbove (s.dar s.dataX))

/-- `m68k_op_cmpm_8`, `m68k_op_cmpm_16`, `m68k_op_cmpm_32`, and `m68k_op_cmpm_8_ax7` with the
    others for the stack pointer. -/
def opCmpm (z : Size) (s : M68kiCpu) : M68kiCpu :=
  let y := postincrement z s s.addressY
  let src := y.2.readSize z y.1
  let x := postincrement z y.2 y.2.addressX
  let dst := x.2.readSize z x.1
  cmp z x.2 src dst

end M68kiCpu

/-! ## Conditions -/

inductive Condition where
  | hi
  | ls
  | cc
  | cs
  | ne
  | eq
  | vc
  | vs
  | pl
  | mi
  | ge
  | lt
  | gt
  | le
  deriving DecidableEq, Repr

namespace M68kiCpu

/-- `COND_CS` and the other conditions, where what is not zero counts as true. -/
def holds (s : M68kiCpu) : Condition → Bool
  | .cs => s.condCs != 0
  | .cc => !(s.condCs != 0)
  | .vs => s.condVs != 0
  | .vc => !(s.condVs != 0)
  | .ne => s.notZFlag != 0
  | .eq => !(s.notZFlag != 0)
  | .mi => s.condMi != 0
  | .pl => !(s.condMi != 0)
  | .lt => (s.nFlag ^^^ s.vFlag) &&& 0x80 != 0
  | .ge => !((s.nFlag ^^^ s.vFlag) &&& 0x80 != 0)
  | .hi => !(s.condCs != 0) && s.notZFlag != 0
  | .ls => s.condCs != 0 || !(s.notZFlag != 0)
  | .gt => !((s.nFlag ^^^ s.vFlag) &&& 0x80 != 0) && s.notZFlag != 0
  | .le => (s.nFlag ^^^ s.vFlag) &&& 0x80 != 0 || !(s.notZFlag != 0)

end M68kiCpu

end CuteMac.M68k

/-
  The packed decimal form of a number (`m68kfpu.c`).

  * `pkmask2`, `pkmask3`: the digits that a positive k-factor keeps;
  * `roundText`: a k-factor that counts the digits after the point;
  * `storePackFloat80`: the three words of the text that `%.16e` prints.

  A text has its terminator as the last character; what reads or writes a character
  outside of the text gives `none`.
-/
import CuteMac.Core.PhysicalMemoryMap

namespace CuteMac.Fpu

open Core

abbrev Text := List UInt8

/-! ## Characters -/

def charAt (str : Text) (i : Int) : Option UInt8 := if 0 ≤ i then str[i.toNat]? else none

def setChar (str : Text) (i : Int) (c : UInt8) : Option Text :=
  if 0 ≤ i ∧ i.toNat < str.length then some (str.set i.toNat c) else none

def isDigit (c : UInt8) : Bool := 0x30 ≤ c && c ≤ 0x39

/-! ## Rounding the text -/

/-- The digits of the exponent, each as four bits; `ch` is the first digit after the point. -/
def hexExponent (str : Text) (ch : Nat) : Nat → Nat → Option Nat
  | 0, exp => some exp
  | n + 1, exp => do
    let c ← charAt str (ch + 18 + (2 - n : Nat))
    hexExponent str ch n (if isDigit c then 16 * exp + (c.toNat - 0x30) else exp)

def zeroDigits (str : Text) (place : Int) : Nat → Option Text
  | 0 => some str
  | n + 1 => do
    let str ← setChar str place 0x30
    zeroDigits str (place + 1) n

/-- The character at a place counts up where the one after it rounds it. -/
def bump (str : Text) (place : Int) (next : UInt8) : Option Text :=
  if 0x35 ≤ next then do
    let last ← charAt str place
    setChar str place (last + 1)
  else some str

/-- The digits from the place `k + 1` on become zeros; the first of them rounds the one before,
    by one character. -/
def roundAt (str : Text) (ch : Nat) (k : Int) : Option Text := do
  let next ← charAt str (ch + (k + 1))
  let str ← bump str (ch + k) next
  zeroDigits str (ch + (k + 1)) (16 - (k + 1)).toNat

def roundText (str : Text) (ch : Nat) (k : Int) : Option Text := do
  let exp ← hexExponent str ch 3 0
  let sign ← charAt str (ch + 17)
  let exp : Int := if sign = 0x2d then -exp else exp
  roundAt str ch (-k + (exp - 1))

/-! ## The words -/

/-- Eight digits with the place after them; a character that is no digit is not passed. -/
def crackDigits (str : Text) : Nat → UInt32 → Nat → Option (UInt32 × Nat)
  | 0, dw, ch => some (dw, ch)
  | n + 1, dw, ch => do
    let c ← charAt str ch
    if isDigit c then crackDigits str n ((dw <<< 4) ||| (c.toUInt32 - 0x30)) (ch + 1)
    else crackDigits str n (dw <<< 4) ch

def crackExponent (str : Text) : Nat → UInt32 → Nat → Option UInt32
  | 0, j, _ => some j
  | n + 1, j, ch => do
    let c ← charAt str ch
    if isDigit c then crackExponent str n ((j <<< 4) ||| (c.toUInt32 - 0x30)) (ch + 1)
    else crackExponent str n j ch

/-- The exponent with its sign, where one is at the place. -/
def exponentWord (str : Text) (ch : Nat) : Option UInt32 := do
  let c ← charAt str ch
  if c = 0x65 ∨ c = 0x45 then do
    let sign ← charAt str (ch + 1 : Nat)
    let ch := if sign = 0x2d then ch + 2 else ch + 1
    let c ← charAt str ch
    let ch := if c = 0x2b then ch + 1 else ch
    let j ← crackExponent str 3 0 ch
    some ((if sign = 0x2d then (0x40000000 : UInt32) else 0) ||| (j <<< 16))
  else some 0

def pkmask2 : List UInt32 :=
  [0xffffffff, 0, 0xf0000000, 0xff000000, 0xfff00000, 0xffff0000, 0xfffff000, 0xffffff00,
    0xfffffff0, 0xffffffff, 0xffffffff, 0xffffffff, 0xffffffff, 0xffffffff, 0xffffffff, 0xffffffff,
    0xffffffff, 0xffffffff]

def pkmask3 : List UInt32 :=
  [0xffffffff, 0, 0, 0, 0, 0, 0, 0, 0, 0, 0xf0000000, 0xff000000, 0xfff00000, 0xffff0000, 0xfffff000,
    0xffffff00, 0xfffffff0, 0xffffffff]

/-- A number in packed form. -/
structure Packed where
  dw1 : UInt32
  dw2 : UInt32
  dw3 : UInt32
  deriving DecidableEq, Repr

namespace Packed

/-- The bytes in memory. -/
def bytes (p : Packed) : List UInt8 :=
  bytesOf p.dw1.toNat 4 ++ bytesOf p.dw2.toNat 4 ++ bytesOf p.dw3.toNat 4

end Packed

/-- The words of a text from its first digit after the point on. -/
def crackText (str : Text) (ch : Nat) (dw1 : UInt32) (k : Int) : Option Packed := do
  let two ← crackDigits str 8 0 ch
  let three ← crackDigits str 8 0 two.2
  let mask (dw : UInt32) (pkmask : List UInt32) : UInt32 :=
    if 1 ≤ k then dw &&& pkmask.getD (if k ≤ 17 then k.toNat else 17) 0 else dw
  let exponent ← exponentWord str three.2
  some ⟨dw1 ||| exponent, mask two.1 pkmask2, mask three.1 pkmask3⟩

def storePackFloat80 (str : Text) (k : Int) : Option Packed := do
  let c ← charAt str 0
  let dw1 : UInt32 := if c = 0x2d then 0x80000000 else 0
  let ch : Nat := if c = 0x2d then 1 else 0
  let c ← charAt str ch
  let ch := if c = 0x2b then ch + 1 else ch
  let lead ← charAt str ch
  let point ← charAt str (ch + 1 : Nat)
  let ch := if point = 0x2e then ch + 2 else ch + 1
  let dw1 := dw1 ||| (lead.toUInt32 - 0x30)
  if k ≤ 0 ∧ -13 ≤ k then do
    let str ← roundText str ch k
    crackText str ch dw1 0
  else crackText str ch dw1 k

end CuteMac.Fpu

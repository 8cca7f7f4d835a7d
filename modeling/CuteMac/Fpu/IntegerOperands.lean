/-
  The operands of the coprocessor and those of the integer unit (`m68kcpu.h`, `m68kfpu.c`).

  * `moveEa`, `store`: what a MOVE takes its effective address field for, by `EA_AY_…`,
    `EA_A7_…`, `EA_AW`, `EA_AL`, `EA_PCDI`, `EA_PCIX` and `OPER_I_…`;
  * `readEa`, `writeEa`: the helpers of the coprocessor by the size of the operand;
  * `readPlace`, `writePlace`, `readEa_place`, `writeEa_place`: the places that the helpers touch;
  * `usesIntegerEa_iff`: where these are the places of the integer unit.
-/
import CuteMac.Fpu.OneBlock

namespace CuteMac.Fpu

open ByteMemory Core M68kiCpu

/-- Single-precision operands have the size of a long word. -/
inductive OperandSize where
  | byte
  | word
  | long
  deriving DecidableEq, Repr

/-- What an effective address stands for. -/
inductive Place where
  | dataRegister (reg : Fin 8)
  | addressRegister (reg : Fin 8)
  | memory (address : UInt32)
  | immediate (value : UInt32)
  deriving DecidableEq, Repr

namespace OperandSize

def bytes : OperandSize → UInt32
  | byte => 1
  | word => 2
  | long => 4

/-- The bits of a register that an operand has. -/
def mask : OperandSize → UInt32
  | byte => 0xff
  | word => 0xffff
  | long => 0xffffffff

end OperandSize

namespace M68kiCpu

/-! ## The integer unit -/

def immediate (s : M68kiCpu) : OperandSize → UInt32 × M68kiCpu
  | .byte => (s.readImm16.1.toUInt8.toUInt32, s.readImm16.2)
  | .word => (s.readImm16.1.toUInt32, s.readImm16.2)
  | .long => s.readImm32

/-- What an address register moves by: the stack pointer stays even. -/
def stepOf (size : OperandSize) (reg : Fin 8) : UInt32 :=
  if size = .byte ∧ reg = 7 then 2 else size.bytes

/-- The effective address of a MOVE; there is no MOVE.B with an address register. -/
def moveEa (s : M68kiCpu) (size : OperandSize) (ea : UInt16) : Option (Place × M68kiCpu) :=
  let reg := eaReg ea
  match eaMode ea with
  | 0 => some (.dataRegister reg, s)
  | 1 => if size = .byte then none else some (.addressRegister reg, s)
  | 2 => some (.memory (s.a reg), s)
  | 3 => some (.memory (s.a reg), s.setA reg (s.a reg + stepOf size reg))
  | 4 => some (.memory (s.a reg - stepOf size reg), s.setA reg (s.a reg - stepOf size reg))
  | 5 => some (.memory (s.eaAyDi reg).1, (s.eaAyDi reg).2)
  | 6 => some (.memory (s.getEaIx (s.a reg)).1, (s.getEaIx (s.a reg)).2)
  | _ =>
    match reg.val with
    | 0 => some (.memory (signed16 s.readImm16.1), s.readImm16.2)
    | 1 => some (.memory s.readImm32.1, s.readImm32.2)
    | 2 => some (.memory s.eaPcdi.1, s.eaPcdi.2)
    | 3 => some (.memory (s.getEaIx s.pc).1, (s.getEaIx s.pc).2)
    | 4 => some (.immediate (s.immediate size).1, (s.immediate size).2)
    | _ => none

/-- The value of an operand, without its sign. -/
def fetch (s : M68kiCpu) (size : OperandSize) : Place → UInt32
  | .dataRegister reg => s.d reg &&& size.mask
  | .addressRegister reg => s.a reg &&& size.mask
  | .memory address =>
    match size with
    | .byte => (s.read8 address).toUInt32
    | .word => (s.read16 address).toUInt32
    | .long => s.read32 address
  | .immediate value => value

def storeMemory (s : M68kiCpu) (size : OperandSize) (address data : UInt32) : M68kiCpu :=
  match size with
  | .byte => s.write8 address data.toUInt8
  | .word => s.write16 address data.toUInt16
  | .long => s.write32 address data

/-- A MOVE to its destination: of a data register the other bits stay. -/
def moveStore (s : M68kiCpu) (size : OperandSize) (data : UInt32) : Place → M68kiCpu
  | .dataRegister reg => s.setD reg ((s.d reg &&& ~~~size.mask) ||| (data &&& size.mask))
  | .addressRegister reg => s.setA reg data
  | .memory address => s.storeMemory size address data
  | .immediate _ => s

/-! ## The coprocessor -/

/-- `READ_EA_8`, `READ_EA_16` or `READ_EA_32`. -/
def readEa (s : M68kiCpu) (size : OperandSize) (ea : UInt16) : UInt32 × M68kiCpu :=
  match size with
  | .byte => ((s.readEa8 ea).1.toUInt32, (s.readEa8 ea).2)
  | .word => ((s.readEa16 ea).1.toUInt32, (s.readEa16 ea).2)
  | .long => s.readEa32 ea

def writeEa (s : M68kiCpu) (size : OperandSize) (ea : UInt16) (data : UInt32) : M68kiCpu :=
  match size with
  | .byte => s.writeEa8 ea data.toUInt8
  | .word => s.writeEa16 ea data.toUInt16
  | .long => s.writeEa32 ea data

/-- The place that a helper reads, in the modes that it knows. -/
def readPlace (s : M68kiCpu) (size : OperandSize) (ea : UInt16) : Option (Place × M68kiCpu) :=
  if eaMode ea = 0 then some (.dataRegister (eaReg ea), s)
  else if eaMode ea = 7 ∧ eaReg ea = 4 then
    some (.immediate (s.immediate size).1, (s.immediate size).2)
  else
    (s.eaAddress size.bytes [2, 3, 4, 5, 6] (if size = .long then [0, 1, 2] else [0, 1]) ea).map
      fun p => (.memory p.1, p.2)

/-- The place that a helper writes; only one of them knows the address registers. -/
def writePlace (s : M68kiCpu) (size : OperandSize) (ea : UInt16) : Option (Place × M68kiCpu) :=
  if eaMode ea = 0 then some (.dataRegister (eaReg ea), s)
  else if size = .long ∧ eaMode ea = 1 then some (.addressRegister (eaReg ea), s)
  else (s.eaAddress size.bytes [2, 3, 4, 5, 6] [1, 2] ea).map fun p => (.memory p.1, p.2)

/-- A helper writes a data register as a whole. -/
def fpuStore (s : M68kiCpu) (size : OperandSize) (data : UInt32) : Place → M68kiCpu
  | .dataRegister reg => s.setD reg (data &&& size.mask)
  | .addressRegister reg => s.setA reg data
  | .memory address => s.storeMemory size address data
  | .immediate _ => s

end M68kiCpu

section
variable (s : M68kiCpu) (size : OperandSize) (ea : UInt16)

theorem toUInt8_toUInt32 (d : UInt32) : d.toUInt8.toUInt32 = d &&& 0xff := by
  rw [← UInt32.toNat_inj, UInt8.toNat_toUInt32, UInt32.toNat_toUInt8, UInt32.toNat_and]
  exact (Nat.and_two_pow_sub_one_eq_mod d.toNat 8).symm

theorem toUInt16_toUInt32 (d : UInt32) : d.toUInt16.toUInt32 = d &&& 0xffff := by
  rw [← UInt32.toNat_inj, UInt16.toNat_toUInt32, UInt32.toNat_toUInt16, UInt32.toNat_and]
  exact (Nat.and_two_pow_sub_one_eq_mod d.toNat 16).symm

theorem and_long (d : UInt32) : d &&& 0xffffffff = d := by
  rw [← UInt32.toNat_inj, UInt32.toNat_and]
  exact (Nat.and_two_pow_sub_one_eq_mod d.toNat 32).trans (Nat.mod_eq_of_lt d.toNat_lt)

/-- A read takes the value at its place, or is reported. -/
theorem readEa_place : s.readEa size ea
    = match s.readPlace size ea with
      | some q => (q.2.fetch size q.1, q.2)
      | none => (0, s.fpuReport) := by
  unfold readPlace readEa
  cases size with
  | byte =>
    rw [if_neg (show ¬ OperandSize.byte = .long by decide)]
    unfold readEa8
    by_cases h0 : eaMode ea = 0
    · rw [if_pos h0, if_pos h0]
      exact congrArg (fun v => (v, s)) (toUInt8_toUInt32 _)
    rw [if_neg h0, if_neg h0]
    by_cases h4 : eaMode ea = 7 ∧ eaReg ea = 4
    · rw [if_pos h4, if_pos h4]
      rfl
    · rw [if_neg h4, if_neg h4]
      rw [show OperandSize.byte.bytes = 1 from rfl]
      cases s.eaAddress 1 [2, 3, 4, 5, 6] [0, 1] ea <;> rfl
  | word =>
    rw [if_neg (show ¬ OperandSize.word = .long by decide)]
    unfold readEa16
    by_cases h0 : eaMode ea = 0
    · rw [if_pos h0, if_pos h0]
      exact congrArg (fun v => (v, s)) (toUInt16_toUInt32 _)
    rw [if_neg h0, if_neg h0]
    by_cases h4 : eaMode ea = 7 ∧ eaReg ea = 4
    · rw [if_pos h4, if_pos h4]
      rfl
    · rw [if_neg h4, if_neg h4]
      rw [show OperandSize.word.bytes = 2 from rfl]
      cases s.eaAddress 2 [2, 3, 4, 5, 6] [0, 1] ea <;> rfl
  | long =>
    rw [if_pos rfl]
    unfold readEa32
    by_cases h0 : eaMode ea = 0
    · rw [if_pos h0, if_pos h0]
      exact congrArg (fun v => (v, s)) (and_long _).symm
    rw [if_neg h0, if_neg h0]
    by_cases h4 : eaMode ea = 7 ∧ eaReg ea = 4
    · rw [if_pos h4, if_pos h4]
      rfl
    · rw [if_neg h4, if_neg h4]
      rw [show OperandSize.long.bytes = 4 from rfl]
      cases s.eaAddress 4 [2, 3, 4, 5, 6] [0, 1, 2] ea <;> rfl

/-- A write goes to its place, or is reported. -/
theorem writeEa_place (data : UInt32) : s.writeEa size ea data
    = match s.writePlace size ea with
      | some q => q.2.fpuStore size data q.1
      | none => s.fpuReport := by
  unfold writePlace writeEa
  cases size with
  | byte =>
    unfold writeEa8
    by_cases h0 : eaMode ea = 0
    · rw [if_pos h0, if_pos h0]
      exact congrArg (s.setD (eaReg ea)) (toUInt8_toUInt32 data)
    rw [if_neg h0, if_neg h0, if_neg (show ¬ (OperandSize.byte = .long ∧ _) from fun h => absurd h.1 (by decide))]
    rw [show OperandSize.byte.bytes = 1 from rfl]
    cases s.eaAddress 1 [2, 3, 4, 5, 6] [1, 2] ea <;> rfl
  | word =>
    unfold writeEa16
    by_cases h0 : eaMode ea = 0
    · rw [if_pos h0, if_pos h0]
      exact congrArg (s.setD (eaReg ea)) (toUInt16_toUInt32 data)
    rw [if_neg h0, if_neg h0, if_neg (show ¬ (OperandSize.word = .long ∧ _) from fun h => absurd h.1 (by decide))]
    rw [show OperandSize.word.bytes = 2 from rfl]
    cases s.eaAddress 2 [2, 3, 4, 5, 6] [1, 2] ea <;> rfl
  | long =>
    unfold writeEa32
    by_cases h0 : eaMode ea = 0
    · rw [if_pos h0, if_pos h0]
      exact congrArg (s.setD (eaReg ea)) (and_long data).symm
    rw [if_neg h0, if_neg h0]
    by_cases h1 : eaMode ea = 1
    · rw [if_pos h1, if_pos ⟨rfl, h1⟩]
      rfl
    · rw [if_neg h1, if_neg fun h => h1 h.2]
      rw [show OperandSize.long.bytes = 4 from rfl]
      cases s.eaAddress 4 [2, 3, 4, 5, 6] [1, 2] ea <;> rfl

end

/-! ## The operands of the instructions -/

/-- The sizes of the integer formats and of single precision. -/
def formatSize : Nat → OperandSize
  | 4 => .word
  | 6 => .byte
  | _ => .long

/-- A source in one of these formats is made of what the helper has read. -/
theorem readSource_operand (arith : SoftFloat) (s : M68kiCpu) (ea : UInt16) {src : Nat}
    (h : src ∈ [0, 1, 4, 6]) :
    ∃ f : UInt32 → Floatx80 × UInt8, s.readSource arith src ea
      = ((f (s.readEa (formatSize src) ea).1).1,
          (s.readEa (formatSize src) ea).2.raise (f (s.readEa (formatSize src) ea).1).2) := by
  simp only [List.mem_cons, List.not_mem_nil, or_false] at h
  rcases h with rfl | rfl | rfl | rfl
  · refine ⟨fun d => (arith.int32ToFloatx80 d, 0), ?_⟩
    dsimp only
    rw [raise_zero]
    rfl
  · exact ⟨arith.float32ToFloatx80, rfl⟩
  · refine ⟨fun d => (arith.int32ToFloatx80 (signed16 d.toUInt16), 0), ?_⟩
    dsimp only
    rw [raise_zero]
    show (arith.int32ToFloatx80 (signed16 (s.readEa16 ea).1), (s.readEa16 ea).2)
      = (arith.int32ToFloatx80 (signed16 (s.readEa16 ea).1.toUInt32.toUInt16), (s.readEa16 ea).2)
    rw [UInt16.toUInt16_toUInt32]
  · refine ⟨fun d => (arith.int32ToFloatx80 (signed8 d.toUInt8), 0), ?_⟩
    dsimp only
    rw [raise_zero]
    show (arith.int32ToFloatx80 (signed8 (s.readEa8 ea).1), (s.readEa8 ea).2)
      = (arith.int32ToFloatx80 (signed8 (s.readEa8 ea).1.toUInt32.toUInt8), (s.readEa8 ea).2)
    rw [UInt8.toUInt8_toUInt32]

/-- An FMOVE to memory in one of these formats writes through the helper. -/
theorem fmoveRegMem_operand (arith : SoftFloat) (s : M68kiCpu) (w2 : UInt16)
    (h : ((w2 >>> 10) &&& 7).toNat ∈ [0, 1, 4, 6]) :
    ∃ flags data, s.fmoveRegMem arith w2
      = (s.raise flags).writeEa (formatSize ((w2 >>> 10) &&& 7).toNat) s.ea data := by
  unfold fmoveRegMem
  dsimp only
  simp only [List.mem_cons, List.not_mem_nil, or_false] at h
  rcases h with h | h | h | h <;> rw [h] <;> exact ⟨_, _, rfl⟩

/-! ## The comparison -/

/-- An operand that a helper accepts is where a MOVE with the same effective address field has
    it, with the same effect on the address register and the program counter, and is read or
    written as a MOVE does. -/
def UsesIntegerEa (s : M68kiCpu) (size : OperandSize) (store : Bool) (ea : UInt16) : Prop :=
  ∀ q, (if store then s.writePlace size ea else s.readPlace size ea) = some q →
    s.moveEa size ea = some q ∧
      if store then ∀ data, s.writeEa size ea data = q.2.moveStore size data q.1
      else s.readEa size ea = (q.2.fetch size q.1, q.2)

/-- An absolute short address that is read is below `0x8000`; a byte is not moved through the
    stack pointer; a data register has no other bits where it is written. -/
def Agreeing (s : M68kiCpu) (size : OperandSize) (store : Bool) (ea : UInt16) : Prop :=
  (store = false → eaMode ea = 7 → (eaReg ea).val = 0 → s.readImm16.1 < 0x8000) ∧
    (size = .byte → eaReg ea = 7 → eaMode ea ≠ 3 ∧ eaMode ea ≠ 4) ∧
    (store = true → eaMode ea = 0 → s.d (eaReg ea) &&& ~~~size.mask = 0)

section
variable {s : M68kiCpu} {size : OperandSize} {ea : UInt16} {p : UInt32 × M68kiCpu}

/-- A displacement is positive exactly if its sign does not matter. -/
theorem signed16_eq_iff (w : UInt16) : signed16 w = w.toUInt32 ↔ w < 0x8000 := by
  have hsigned : (signed16 w).toNat = w.toNat + if w.toBitVec.msb then 2 ^ 32 - 2 ^ 16 else 0 := by
    show (w.toBitVec.signExtend 32).toNat = _
    have hlt : w.toBitVec.toNat < 2 ^ 32 := w.toNat_lt.trans (by decide)
    rw [BitVec.toNat_signExtend, BitVec.toNat_setWidth, Nat.mod_eq_of_lt hlt]
    rfl
  have hmsb : w.toBitVec.msb = decide (2 ^ 15 ≤ w.toNat) := BitVec.msb_eq_decide w.toBitVec
  rw [← UInt32.toNat_inj, hsigned, hmsb, UInt16.toNat_toUInt32, UInt16.lt_iff_toNat_lt,
    show (0x8000 : UInt16).toNat = 2 ^ 15 from rfl]
  by_cases h : 2 ^ 15 ≤ w.toNat
  · rw [if_pos (decide_eq_true h)]
    omega
  · rw [if_neg (by simpa using h)]
    omega

theorem eaMode_le (ea : UInt16) : eaMode ea ≤ 7 := by
  unfold eaMode
  rw [UInt16.toNat_and]
  exact Nat.and_le_right

theorem stepOf_ne {reg : Fin 8} (h : size = .byte ∧ reg = 7) : stepOf size reg = 2 := if_pos h

theorem setA_inj {reg : Fin 8} {x y : UInt32} (h : s.setA reg x = s.setA reg y) : x = y := by
  have hreg := congrFun (congrArg M68kiCpu.a h) reg
  rw [a_setA, a_setA] at hreg
  exact hreg

/-- An address in memory is the one of the integer unit. -/
theorem moveEa_iff {extended : List Nat} (hext : ∀ e ∈ extended, e ∈ [0, 1, 2])
    (hp : s.eaAddress size.bytes [2, 3, 4, 5, 6] extended ea = some p) :
    s.moveEa size ea = some (.memory p.1, p.2) ↔
      (eaMode ea = 7 → (eaReg ea).val = 0 → s.readImm16.1 < 0x8000) ∧
        (size = .byte → eaReg ea = 7 → eaMode ea ≠ 3 ∧ eaMode ea ≠ 4) := by
  unfold eaAddress at hp
  dsimp only at hp
  by_cases hm : eaMode ea ∈ [2, 3, 4, 5, 6]
  · rw [if_pos hm] at hp
    have h7 : eaMode ea ≠ 7 := by
      intro h7
      rw [h7] at hm
      exact absurd hm (by decide)
    unfold moveEa
    simp only [List.mem_cons, List.not_mem_nil, or_false] at hm
    rcases hm with h | h | h | h | h
    all_goals
      rw [h] at hp ⊢
      obtain rfl := Option.some.inj hp
    · exact iff_of_true rfl ⟨fun h7 => absurd h7 (by decide), fun _ _ => ⟨by decide, by decide⟩⟩
    · by_cases hb : size = .byte ∧ eaReg ea = 7
      · refine iff_of_false (fun heq => ?_) fun hag => (hag.2 hb.1 hb.2).1 rfl
        have hstep : s.a (eaReg ea) + stepOf size (eaReg ea) = s.a (eaReg ea) + size.bytes :=
          setA_inj (congrArg Prod.snd (Option.some.inj heq))
        rw [stepOf_ne hb] at hstep
        exact absurd ((UInt32.add_right_inj _).1 hstep) (by rw [hb.1]; decide)
      · refine iff_of_true ?_ ⟨fun h7 => absurd h7 (by decide), fun h1 h2 => absurd ⟨h1, h2⟩ hb⟩
        show some (Place.memory (s.a (eaReg ea)),
          s.setA (eaReg ea) (s.a (eaReg ea) + stepOf size (eaReg ea))) = _
        rw [stepOf, if_neg hb]
    · by_cases hb : size = .byte ∧ eaReg ea = 7
      · refine iff_of_false (fun heq => ?_) fun hag => (hag.2 hb.1 hb.2).2 rfl
        have hstep : s.a (eaReg ea) - stepOf size (eaReg ea) = s.a (eaReg ea) - size.bytes :=
          setA_inj (congrArg Prod.snd (Option.some.inj heq))
        rw [stepOf_ne hb] at hstep
        exact absurd ((UInt32.sub_right_inj _).1 hstep) (by rw [hb.1]; decide)
      · refine iff_of_true ?_ ⟨fun h7 => absurd h7 (by decide), fun h1 h2 => absurd ⟨h1, h2⟩ hb⟩
        show some (Place.memory (s.a (eaReg ea) - stepOf size (eaReg ea)),
          s.setA (eaReg ea) (s.a (eaReg ea) - stepOf size (eaReg ea))) = _
        rw [stepOf, if_neg hb]
    · exact iff_of_true rfl ⟨fun h7 => absurd h7 (by decide), fun _ _ => ⟨by decide, by decide⟩⟩
    · exact iff_of_true rfl ⟨fun h7 => absurd h7 (by decide), fun _ _ => ⟨by decide, by decide⟩⟩
  · rw [if_neg hm] at hp
    split at hp
    · rename_i hreg
      obtain ⟨h7, he⟩ := hreg
      have hin := hext _ he
      simp only [List.mem_cons, List.not_mem_nil, or_false] at hin
      unfold moveEa
      dsimp only
      rw [h7]
      rcases hin with h | h | h
      all_goals
        rw [h] at hp ⊢
        obtain rfl := Option.some.inj hp
      · constructor
        · intro heq
          have hplace := Place.memory.inj (congrArg Prod.fst (Option.some.inj heq))
          exact ⟨fun _ _ => (signed16_eq_iff _).1 hplace, fun _ _ => ⟨by decide, by decide⟩⟩
        · rintro ⟨hlow, -⟩
          show some (Place.memory (signed16 s.readImm16.1), s.readImm16.2) = _
          rw [(signed16_eq_iff _).2 (hlow rfl rfl)]
      · refine iff_of_true ?_ ⟨fun _ h0 => absurd h0 (by decide), fun _ _ => ⟨by decide, by decide⟩⟩
        show some (Place.memory s.readImm32.1, s.readImm32.2) = _
        rw [Fmovem.readImm32_words]
      · exact iff_of_true rfl
          ⟨fun _ h0 => absurd h0 (by decide), fun _ _ => ⟨by decide, by decide⟩⟩
    · cases hp

/-- An operand without an address is none that would be elsewhere. -/
theorem agreeing_of_unknown {extended : List Nat} (hext : ∀ e ∈ extended, e ∈ [0, 1, 2])
    (hp : s.eaAddress size.bytes [2, 3, 4, 5, 6] extended ea = none) :
    ¬ (eaMode ea = 7 ∧ (eaReg ea).val ∈ extended) ∧ eaMode ea ≠ 3 ∧ eaMode ea ≠ 4 := by
  have hmodes : OperandModes size.bytes [2, 3, 4, 5, 6] extended := by
    refine ⟨by cases size <;> decide, by decide, fun e he => ?_⟩
    have hin := hext e he
    simp only [List.mem_cons, List.not_mem_nil, or_false] at hin ⊢
    omega
  rcases eaAddress_cases s ea hmodes with ⟨-, p, hsome, -⟩ | ⟨hunknown, -⟩
  · rw [hp] at hsome
    cases hsome
  · refine ⟨fun h => hunknown (Or.inr h), fun h3 => ?_, fun h4 => ?_⟩
    · exact hunknown (Or.inl (by rw [h3]; decide))
    · exact hunknown (Or.inl (by rw [h4]; decide))

theorem usesIntegerEa_read_iff :
    UsesIntegerEa s size false ea ↔
      (eaMode ea = 7 → (eaReg ea).val = 0 → s.readImm16.1 < 0x8000) ∧
        (size = .byte → eaReg ea = 7 → eaMode ea ≠ 3 ∧ eaMode ea ≠ 4) := by
  have hread : ∀ q, s.readPlace size ea = some q → s.readEa size ea = (q.2.fetch size q.1, q.2) := by
    intro q hq
    rw [readEa_place, hq]
  have hall : UsesIntegerEa s size false ea ↔
      ∀ q, s.readPlace size ea = some q → s.moveEa size ea = some q :=
    ⟨fun h q hq => (h q hq).1, fun h q hq => ⟨h q hq, hread q hq⟩⟩
  rw [hall]
  unfold readPlace
  by_cases h0 : eaMode ea = 0
  · rw [if_pos h0]
    refine iff_of_true ?_ ⟨fun h7 => absurd h7 (by omega), fun _ _ => ⟨by omega, by omega⟩⟩
    intro q hq
    unfold moveEa
    dsimp only
    rw [h0]
    exact hq
  rw [if_neg h0]
  by_cases h4 : eaMode ea = 7 ∧ eaReg ea = 4
  · obtain ⟨h7, hreg⟩ := h4
    rw [if_pos ⟨h7, hreg⟩]
    refine iff_of_true ?_ ⟨fun _ h => absurd h (by rw [hreg]; decide), fun _ h => ?_⟩
    · intro q hq
      unfold moveEa
      dsimp only
      rw [h7, hreg]
      exact hq
    · rw [hreg] at h
      exact absurd h (by decide)
  rw [if_neg h4]
  have hext : ∀ e ∈ (if size = .long then [0, 1, 2] else [0, 1]), e ∈ [0, 1, 2] := by
    intro e he
    split_ifs at he
    · exact he
    · exact List.mem_append_left [2] he
  cases hp : s.eaAddress size.bytes [2, 3, 4, 5, 6] (if size = .long then [0, 1, 2] else [0, 1]) ea with
  | none =>
    obtain ⟨hext7, h3, h4⟩ := agreeing_of_unknown hext hp
    refine iff_of_true (fun q hq => by cases hq) ⟨fun h7 h => absurd ⟨h7, ?_⟩ hext7, fun _ _ => ⟨h3, h4⟩⟩
    rw [h]
    split_ifs <;> decide
  | some p =>
    rw [← moveEa_iff hext hp]
    exact ⟨fun h => h _ rfl, fun h q hq => h.trans hq⟩

/-- The other bits of a data register are lost. -/
theorem fpuStore_iff (reg : Fin 8) :
    (∀ data, s.fpuStore size data (.dataRegister reg) = s.moveStore size data (.dataRegister reg)) ↔
      s.d reg &&& ~~~size.mask = 0 := by
  have hvalue : ∀ x y : UInt32, s.setD reg x = s.setD reg y → x = y := by
    intro x y h
    have hreg : Function.update s.d reg x reg = Function.update s.d reg y reg :=
      congrFun (congrArg M68kiCpu.d h) reg
    rw [Function.update_self, Function.update_self] at hreg
    exact hreg
  constructor
  · intro h
    have hzero := hvalue _ _ (h 0)
    rw [UInt32.zero_and, UInt32.or_zero] at hzero
    exact hzero.symm
  · intro h data
    show s.setD reg _ = s.setD reg _
    rw [h, UInt32.zero_or]

theorem usesIntegerEa_write_iff :
    UsesIntegerEa s size true ea ↔
      (size = .byte → eaReg ea = 7 → eaMode ea ≠ 3 ∧ eaMode ea ≠ 4) ∧
        (eaMode ea = 0 → s.d (eaReg ea) &&& ~~~size.mask = 0) := by
  have hall : UsesIntegerEa s size true ea ↔ ∀ q, s.writePlace size ea = some q →
      s.moveEa size ea = some q ∧ ∀ data, q.2.fpuStore size data q.1 = q.2.moveStore size data q.1 := by
    have hwrite : ∀ q, s.writePlace size ea = some q → ∀ data,
        s.writeEa size ea data = q.2.fpuStore size data q.1 := by
      intro q hq data
      rw [writeEa_place, hq]
    exact ⟨fun h q hq => ⟨(h q hq).1, fun data => (hwrite q hq data).symm.trans ((h q hq).2 data)⟩,
      fun h q hq => ⟨(h q hq).1, fun data => (hwrite q hq data).trans ((h q hq).2 data)⟩⟩
  rw [hall]
  unfold writePlace
  by_cases h0 : eaMode ea = 0
  · rw [if_pos h0]
    have hea : s.moveEa size ea = some (.dataRegister (eaReg ea), s) := by
      unfold moveEa
      dsimp only
      rw [h0]
      rfl
    rw [hea]
    constructor
    · intro h
      exact ⟨fun _ _ => ⟨by omega, by omega⟩, fun _ => (fpuStore_iff (eaReg ea)).1 (h _ rfl).2⟩
    · rintro ⟨-, h⟩ q hq
      obtain rfl := Option.some.inj hq
      exact ⟨rfl, (fpuStore_iff (eaReg ea)).2 (h h0)⟩
  rw [if_neg h0]
  by_cases h1 : size = .long ∧ eaMode ea = 1
  · rw [if_pos h1]
    refine iff_of_true ?_ ⟨fun _ _ => ⟨by omega, by omega⟩, fun h => absurd h h0⟩
    intro q hq
    obtain rfl := Option.some.inj hq
    refine ⟨?_, fun _ => rfl⟩
    unfold moveEa
    dsimp only
    rw [h1.2, h1.1]
    rfl
  rw [if_neg h1]
  have hext : ∀ e ∈ [1, 2], e ∈ [0, 1, 2] := by decide
  cases hp : s.eaAddress size.bytes [2, 3, 4, 5, 6] [1, 2] ea with
  | none =>
    obtain ⟨-, h3, h4⟩ := agreeing_of_unknown hext hp
    exact iff_of_true (fun q hq => by cases hq) ⟨fun _ _ => ⟨h3, h4⟩, fun h => absurd h h0⟩
  | some p =>
    have hmove := moveEa_iff hext hp
    have hshort : eaMode ea = 7 → (eaReg ea).val = 0 → s.readImm16.1 < 0x8000 := by
      intro h7 hreg
      unfold eaAddress at hp
      dsimp only at hp
      rw [h7, if_neg (by decide), hreg, if_neg (by decide)] at hp
      cases hp
    constructor
    · intro h
      exact ⟨(hmove.1 (h _ rfl).1).2, fun h => absurd h h0⟩
    · rintro ⟨h, -⟩ q hq
      obtain rfl := Option.some.inj hq
      exact ⟨hmove.2 ⟨hshort, h⟩, fun _ => rfl⟩

end

/-- An operand is that of the integer unit exactly where nothing of it would get lost. -/
theorem usesIntegerEa_iff (s : M68kiCpu) (size : OperandSize) (store : Bool) (ea : UInt16) :
    UsesIntegerEa s size store ea ↔ Agreeing s size store ea := by
  unfold Agreeing
  cases store with
  | false =>
    rw [usesIntegerEa_read_iff]
    constructor
    · rintro ⟨hshort, hstack⟩
      exact ⟨fun _ => hshort, hstack, fun h => absurd h (by decide)⟩
    · rintro ⟨hshort, hstack, -⟩
      exact ⟨hshort rfl, hstack⟩
  | true =>
    rw [usesIntegerEa_write_iff]
    constructor
    · rintro ⟨hstack, hdata⟩
      exact ⟨fun h => absurd h (by decide), hstack, fun _ => hdata⟩
    · rintro ⟨-, hstack, hdata⟩
      exact ⟨hstack, hdata rfl⟩

/-- `FMOVE.B FP0,D0` clears the other bytes of D0. -/
theorem byte_clears_register :
    ¬ ∀ (s : M68kiCpu) (size : OperandSize) (store : Bool) (ea : UInt16),
      UsesIntegerEa s size store ea := by
  intro h
  have hbyte := usesIntegerEa_write_iff.1
    (h { probe 0xf200 (fun _ => 0) with d := fun _ => 0x12345678 } .byte true 0)
  exact absurd (hbyte.2 rfl) (by decide)

end CuteMac.Fpu

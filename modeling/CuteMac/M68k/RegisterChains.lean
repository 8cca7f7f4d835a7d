/-
  Numbers in several data registers.

  * `RegisterOperation`: ADDX, SUBX and NEGX of data registers;
  * `RegisterOperation.step_unit`: what one of them does to its unit;
  * `RegisterResult`: what a chain of them does to the numbers that the units make;
  * `run_registers`: the flags of the whole numbers.
-/
import CuteMac.Lib.Machine
import CuteMac.M68k.WideNumbers
import Mathlib.Data.Nat.Digits.Defs

namespace CuteMac.M68k

open M68kiCpu WideArithmetic
open Machine (run)

/-- ADDX, SUBX and NEGX of data registers. -/
inductive RegisterOperation where
  | addx
  | subx
  | negx
  deriving DecidableEq, Repr

namespace RegisterOperation

def kind : RegisterOperation → Operation
  | addx => .sum
  | subx => .difference
  | negx => .difference

/-- The instruction whose word has these register fields. -/
def step (o : RegisterOperation) (z : Size) (s : M68kiCpu) (word : UInt32) : M68kiCpu :=
  match o with
  | addx => opAddxRr z { s with ir := word }
  | subx => opSubxRr z { s with ir := word }
  | negx => opNegxD z { s with ir := word }

def sourceRegister (word : UInt32) : Fin 16 := Fin.ofNat 16 (word &&& 7).toNat

/-- The register of the result, which is that of the source for NEGX. -/
def register (o : RegisterOperation) (word : UInt32) : Fin 16 :=
  match o with
  | addx => Fin.ofNat 16 ((word >>> 9) &&& 7).toNat
  | subx => Fin.ofNat 16 ((word >>> 9) &&& 7).toNat
  | negx => sourceRegister word

/-- The unit in a register. -/
def unit (z : Size) (dar : Fin 16 → UInt32) (reg : Fin 16) : Nat := (z.maskOutAbove (dar reg)).toNat

/-- The other operand; NEGX has none, and takes its source from zero. -/
def destination (o : RegisterOperation) (z : Size) (dar : Fin 16 → UInt32) (word : UInt32) : Nat :=
  match o with
  | negx => 0
  | _ => unit z dar (o.register word)

end RegisterOperation

open RegisterOperation

/-! ## One unit -/

section
variable (z : Size)

theorem maskOutAbove_setLow (a v : UInt32) :
    z.maskOutAbove (z.maskOutBelow a ||| z.maskOutAbove v) = z.maskOutAbove v ∧
      z.maskOutBelow (z.maskOutBelow a ||| z.maskOutAbove v) = z.maskOutBelow a := by
  have hbits : ∀ m : UInt32, (a &&& ~~~m ||| v &&& m) &&& m = v &&& m ∧
      (a &&& ~~~m ||| v &&& m) &&& ~~~m = a &&& ~~~m := by
    intro m
    rw [← UInt32.toBitVec_inj, ← UInt32.toBitVec_inj]
    simp only [UInt32.toBitVec_and, UInt32.toBitVec_or, UInt32.toBitVec_not]
    constructor <;> ext i hi <;> simp <;> cases m.toBitVec[i] <;> simp
  exact hbits z.mask

theorem top_maskOutAbove (a : UInt32) : z.top (z.maskOutAbove a) = z.top a := by
  have hmask : z.maskOutAbove (z.maskOutAbove a) = z.maskOutAbove a :=
    maskOutAbove_of_lt z (z.maskOutAbove_lt a)
  rw [Size.top_eq, Size.top_eq, hmask]

/-- The borrow and the overflow of a negation, which the source takes from the whole register. -/
theorem negation_bits (src res : UInt32) :
    z.cflagSub src 0 res = z.cflagSub (z.maskOutAbove src) 0 res ∧
      (((src &&& res) >>> z.shift).toNat.testBit 7)
        = (z.vflagSub (z.maskOutAbove src) 0 res).toNat.testBit 7 := by
  constructor
  · cases z with
    | byte => rfl
    | word => rfl
    | long => rw [maskOutAbove_of_lt .long src.toNat_lt]
  · have hzero : z.top 0 = false := by cases z <;> decide
    rw [Size.testBit_shift, Size.top_and, Size.vflagSub_bit, top_maskOutAbove, hzero, Bool.xor_false,
      Bool.xor_false]

end

/-- What an operation leaves of its unit. -/
structure UnitResult (o : RegisterOperation) (z : Size) (s : M68kiCpu) (word : UInt32) (t : M68kiCpu) :
    Prop where
  flags : Flags o.kind z.half (o.destination z s.dar word) (unit z s.dar (sourceRegister word)) s.carryIn
    (unit z t.dar (o.register word)) t
  carries : t.xFlag = t.cFlag
  zero : t.notZFlag = 0 ↔ s.notZFlag = 0 ∧ unit z t.dar (o.register word) = 0
  upper : z.maskOutBelow (t.dar (o.register word)) = z.maskOutBelow (s.dar (o.register word))
  frame : t = { s.withFlags t with
    ir := word
    dar := Function.update s.dar (o.register word) (t.dar (o.register word)) }

section
variable (o : RegisterOperation) (z : Size) (s : M68kiCpu) (word : UInt32)

/-- The result goes into the low part of the register, with the flags. -/
theorem unitResult_setLow {r : UInt32 × M68kiCpu}
    (hstep : o.step z s word = setLow z r.2 (o.register word) r.1)
    (hmask : z.maskOutAbove r.1 = r.1) (hframe : r.2 = withFlags { s with ir := word } r.2)
    (hflags : Flags o.kind z.half (o.destination z s.dar word) (unit z s.dar (sourceRegister word))
      s.carryIn r.1.toNat r.2)
    (hcarries : r.2.xFlag = r.2.cFlag) (hzero : r.2.notZFlag = 0 ↔ s.notZFlag = 0 ∧ r.1.toNat = 0) :
    UnitResult o z s word (o.step z s word) := by
  have hdar : r.2.dar = s.dar := by rw [hframe]; rfl
  obtain ⟨hlow, hhigh⟩ := maskOutAbove_setLow z (s.dar (o.register word)) r.1
  rw [hmask] at hlow hhigh
  rw [hstep]
  have hreg : (setLow z r.2 (o.register word) r.1).dar (o.register word)
      = z.maskOutBelow (s.dar (o.register word)) ||| r.1 := by
    show Function.update r.2.dar _ _ _ = _
    rw [Function.update_self, hdar]
  have hunit : unit z (setLow z r.2 (o.register word) r.1).dar (o.register word) = r.1.toNat := by
    rw [unit, hreg, hlow]
  refine ⟨?_, hcarries, ?_, ?_, ?_⟩
  · rw [hunit]
    exact ⟨hflags.result, hflags.negative, hflags.overflow⟩
  · rw [hunit]
    exact hzero
  · rw [hreg, hhigh]
  · have hlow : setLow z r.2 (o.register word) r.1 = { r.2 with
        dar := Function.update s.dar (o.register word)
          (z.maskOutBelow (s.dar (o.register word)) ||| r.1) } := by
      rw [← hdar]
      rfl
    rw [hreg]
    exact hlow.trans (congrArg (fun u : M68kiCpu => { u with
      dar := Function.update s.dar (o.register word)
        (z.maskOutBelow (s.dar (o.register word)) ||| r.1) }) hframe)

theorem unitResult_extended (k : Operation) (hkind : o.kind = k)
    (hstep : o.step z s word = opRr z { s with ir := word } (extended k))
    (hdst : o.destination z s.dar word = unit z s.dar (o.register word))
    (hreg : o.register word = dataX { s with ir := word }) : UnitResult o z s word (o.step z s word) := by
  have hs := z.maskOutAbove_lt (s.dar (sourceRegister word))
  have hd := z.maskOutAbove_lt (s.dar (o.register word))
  obtain ⟨hflags, hcarries⟩ := flags_extended k { s with ir := word } hs hd
  have hcomputes := computes_extended k z
  rw [pow_bytes] at hcomputes
  have hvalid := hcomputes.valid { s with ir := word } hs hd
  refine unitResult_setLow o z s word (r := extended k z { s with ir := word }
    (z.maskOutAbove (s.dar (sourceRegister word))) (z.maskOutAbove (s.dar (o.register word)))) ?_
    (maskOutAbove_of_lt z hvalid) (hcomputes.frame _ _ _) ?_ hcarries (hcomputes.zero _ hs hd)
  · rw [hstep, hreg]
    rfl
  · rw [hkind, hdst]
    exact hflags

theorem unitResult_negx : UnitResult .negx z s word (RegisterOperation.negx.step z s word) := by
  have hs := z.maskOutAbove_lt (s.dar (sourceRegister word))
  obtain ⟨src, hsrc⟩ : ∃ a, a = s.dar (sourceRegister word) := ⟨_, rfl⟩
  obtain ⟨b, hb⟩ : ∃ b, b = xflagAs1 s := ⟨_, rfl⟩
  have hcarry : b.toNat = s.carryIn := hb ▸ toNat_xflagAs1 s
  rw [← hsrc] at hs
  have hzero : (0 : UInt32).toNat < 2 * z.half := by cases z <;> decide
  have hle : b.toNat ≤ 1 := hcarry ▸ s.carryIn_le
  obtain ⟨c, hres, hcbit, hvbit⟩ := difference_unit z hs hzero hle
  obtain ⟨hc, hv⟩ := negation_bits z src (0 - z.maskOutAbove src - b)
  rw [← hc] at hcbit
  rw [← hv] at hvbit
  refine unitResult_setLow .negx z s word (r := negx z { s with ir := word } src) ?_
    (maskOutAbove_of_lt z (z.maskOutAbove_lt _)) rfl ⟨?_, ?_, ?_⟩ rfl ?_
  · rw [hsrc]
    rfl
  · rw [← hcarry]
    show Result .difference (2 * z.half) 0 (z.maskOutAbove (s.dar (sourceRegister word))).toNat b.toNat
      (z.maskOutAbove (0 - z.maskOutAbove src - xflagAs1 s)).toNat
      ((z.cflagSub src 0 (0 - z.maskOutAbove src - xflagAs1 s)).toNat.testBit 8).toNat
    rw [← hsrc, ← hb, hcbit, toNat_decide_carry hres.carry]
    exact hres
  · show (z.nflag (0 - z.maskOutAbove src - xflagAs1 s)).toNat.testBit 7 = true ↔ _
    rw [z.nflag_bit, z.top_eq, decide_eq_true_iff]
    rfl
  · rw [← hcarry]
    show ((src &&& (0 - z.maskOutAbove src - xflagAs1 s)) >>> z.shift).toNat.testBit 7 = true ↔
      signed z.half (z.maskOutAbove (0 - z.maskOutAbove src - xflagAs1 s)).toNat
        ≠ Operation.difference.exact (signed z.half 0)
          (signed z.half (z.maskOutAbove (s.dar (sourceRegister word))).toNat) b.toNat
    rw [← hsrc, ← hb, hvbit, decide_eq_true_iff]
    rfl
  · exact (or_eq_zero _ _).trans (and_congr_right' UInt32.toNat_inj.symm)

/-- Each of the operations does its unit. -/
theorem step_unit : UnitResult o z s word (o.step z s word) := by
  cases o with
  | addx => exact unitResult_extended .addx z s word .sum rfl rfl rfl rfl
  | subx => exact unitResult_extended .subx z s word .difference rfl rfl rfl rfl
  | negx => exact unitResult_negx z s word

end

/-! ## A chain of units -/

/-- The number of these units, the lowest of which is the first one. -/
def ofUnits (z : Size) (units : List Nat) : Nat := Nat.ofDigits (256 ^ z.bytes) units

section
variable (z : Size) (f : UInt32 → Nat) (words : List UInt32)

theorem ofUnits_map_append (word : UInt32) :
    ofUnits z ((words ++ [word]).map f)
      = f word * (256 ^ z.bytes) ^ words.length + ofUnits z (words.map f) := by
  rw [ofUnits, List.map_append, List.map_singleton, Nat.ofDigits_append, Nat.ofDigits_singleton,
    List.length_map, Nat.mul_comm, Nat.add_comm]
  rfl

theorem ofUnits_map_lt (h : ∀ word, f word < 256 ^ z.bytes) :
    ofUnits z (words.map f) < (256 ^ z.bytes) ^ words.length := by
  have hlt : ofUnits z (words.map f) < (256 ^ z.bytes) ^ (words.map f).length := by
    refine Nat.ofDigits_lt_base_pow_length (by cases z <;> decide) fun x hx => ?_
    obtain ⟨word, -, rfl⟩ := List.mem_map.mp hx
    exact h word
  rwa [List.length_map] at hlt

end

theorem unit_lt (z : Size) (dar : Fin 16 → UInt32) (reg : Fin 16) : unit z dar reg < 256 ^ z.bytes := by
  rw [pow_bytes]
  exact z.maskOutAbove_lt _

namespace RegisterOperation

theorem destination_lt (o : RegisterOperation) (z : Size) (dar : Fin 16 → UInt32) (word : UInt32) :
    o.destination z dar word < 256 ^ z.bytes := by
  cases o with
  | addx => exact unit_lt z dar _
  | subx => exact unit_lt z dar _
  | negx => exact Nat.pow_pos (by decide)

theorem destination_congr (o : RegisterOperation) (z : Size) {dar dar' : Fin 16 → UInt32} {word : UInt32}
    (h : dar' (o.register word) = dar (o.register word)) :
    o.destination z dar' word = o.destination z dar word := by
  cases o with
  | addx => exact congrArg (fun a => (z.maskOutAbove a).toNat) h
  | subx => exact congrArg (fun a => (z.maskOutAbove a).toNat) h
  | negx => rfl

/-- The number that is added or taken away. -/
def sources (z : Size) (s : M68kiCpu) (words : List UInt32) : Nat :=
  ofUnits z (words.map fun word => unit z s.dar (sourceRegister word))

/-- The number to which it is added, or from which it is taken. -/
def destinations (o : RegisterOperation) (z : Size) (s : M68kiCpu) (words : List UInt32) : Nat :=
  ofUnits z (words.map (o.destination z s.dar))

/-- The number in the registers of the results. -/
def results (o : RegisterOperation) (z : Size) (t : M68kiCpu) (words : List UInt32) : Nat :=
  ofUnits z (words.map fun word => unit z t.dar (o.register word))

/-- No result is an operand of a later instruction. -/
def Independent (o : RegisterOperation) (words : List UInt32) : Prop :=
  words.Pairwise fun v w => o.register v ≠ o.register w ∧ o.register v ≠ sourceRegister w

end RegisterOperation

/-- The numbers after the instructions. -/
structure RegisterResult (o : RegisterOperation) (z : Size) (s : M68kiCpu) (words : List UInt32)
    (t : M68kiCpu) : Prop where
  result : Result o.kind ((256 ^ z.bytes) ^ words.length) (o.destinations z s words) (sources z s words)
    s.carryIn (o.results z t words) t.carryIn
  zero : t.notZFlag = 0 ↔ s.notZFlag = 0 ∧ o.results z t words = 0
  frame : t = { s.withFlags t with
    ir := t.ir
    dar := t.dar }
  others (reg : Fin 16) (h : ∀ word ∈ words, o.register word ≠ reg) : t.dar reg = s.dar reg
  upper (reg : Fin 16) : z.maskOutBelow (t.dar reg) = z.maskOutBelow (s.dar reg)

section
variable {o : RegisterOperation} {z : Size} {s t : M68kiCpu} {words : List UInt32} {word : UInt32}

theorem UnitResult.dar_of_ne {u : M68kiCpu} (h : UnitResult o z t word u) {reg : Fin 16}
    (hne : reg ≠ o.register word) : u.dar reg = t.dar reg := by
  rw [h.frame]
  exact Function.update_of_ne hne ..

theorem registerResult_nil (o : RegisterOperation) (z : Size) (s : M68kiCpu) :
    RegisterResult o z s [] s :=
  ⟨Result.empty s.carryIn_le, (and_iff_left rfl).symm, rfl, fun _ _ => rfl, fun _ => rfl⟩

/-- The next unit, whose operands are those of the beginning. -/
theorem RegisterResult.unit (h : RegisterResult o z s words t)
    (hne : ∀ v ∈ words, o.register v ≠ o.register word ∧ o.register v ≠ sourceRegister word) :
    Flags o.kind z.half (o.destination z s.dar word) (RegisterOperation.unit z s.dar (sourceRegister word))
        t.carryIn (RegisterOperation.unit z (o.step z t word).dar (o.register word)) (o.step z t word) ∧
      o.results z (o.step z t word) (words ++ [word])
        = RegisterOperation.unit z (o.step z t word).dar (o.register word) * (256 ^ z.bytes) ^ words.length
          + o.results z t words := by
  have hunit := step_unit o z t word
  have hdst := h.others _ fun v hv => (hne v hv).1
  have hsrc := h.others _ fun v hv => (hne v hv).2
  constructor
  · have hflags := hunit.flags
    rw [o.destination_congr z hdst, RegisterOperation.unit, hsrc] at hflags
    exact hflags
  · have hold : words.map (fun v => RegisterOperation.unit z (o.step z t word).dar (o.register v))
        = words.map fun v => RegisterOperation.unit z t.dar (o.register v) := by
      refine List.map_congr_left fun v hv => ?_
      rw [RegisterOperation.unit, hunit.dar_of_ne (hne v hv).1]
      rfl
    rw [results, ofUnits_map_append, hold]
    rfl

theorem RegisterResult.step (h : RegisterResult o z s words t)
    (hne : ∀ v ∈ words, o.register v ≠ o.register word ∧ o.register v ≠ sourceRegister word) :
    RegisterResult o z s (words ++ [word]) (o.step z t word) := by
  have hunit := step_unit o z t word
  obtain ⟨hflags, hresults⟩ := h.unit hne
  have hpos : 0 < (256 ^ z.bytes) ^ words.length := Nat.zero_lt_of_lt h.result.lt
  refine ⟨?_, ?_, ?_, ?_, ?_⟩
  · have hcarry : (o.step z t word).carryIn = _ :=
      congrArg (fun x : UInt32 => (x.toNat.testBit 8).toNat) hunit.carries
    have hsum := hflags.result
    rw [← pow_bytes] at hsum
    rw [hcarry, hresults, destinations, sources, ofUnits_map_append, ofUnits_map_append,
      List.length_append, List.length_singleton, Nat.pow_succ']
    exact h.result.append hsum
  · rw [hunit.zero, h.zero, hresults, append_eq_zero hpos]
    tauto
  · have hir : (o.step z t word).ir = word := congrArg M68kiCpu.ir hunit.frame
    have hdar : (o.step z t word).dar = Function.update t.dar (o.register word)
        ((o.step z t word).dar (o.register word)) := congrArg M68kiCpu.dar hunit.frame
    rw [hir, hdar]
    exact hunit.frame.trans (congrArg (fun u : M68kiCpu => { u.withFlags (o.step z t word) with
      ir := word
      dar := Function.update t.dar (o.register word) ((o.step z t word).dar (o.register word)) }) h.frame)
  · intro reg hreg
    rw [hunit.dar_of_ne fun he => hreg word (by simp) he.symm]
    exact h.others reg fun v hv => hreg v (List.mem_append_left _ hv)
  · intro reg
    rw [← h.upper reg]
    by_cases hreg : reg = o.register word
    · rw [hreg, hunit.upper]
    · rw [hunit.dar_of_ne hreg]

theorem independent_append : o.Independent (words ++ [word]) ↔ o.Independent words ∧
    ∀ v ∈ words, o.register v ≠ o.register word ∧ o.register v ≠ sourceRegister word := by
  simp [Independent, List.pairwise_append]

theorem registerResult (o : RegisterOperation) (z : Size) (s : M68kiCpu) (words : List UInt32)
    (h : o.Independent words) : RegisterResult o z s words (run (o.step z) s words) := by
  induction words using List.reverseRecOn with
  | nil => exact registerResult_nil o z s
  | append_singleton words word ih =>
    obtain ⟨hlow, hne⟩ := independent_append.mp h
    rw [Machine.run_append]
    exact (ih hlow).step hne

/-- What a chain leaves: the whole numbers, and the flags for them. -/
structure WholeResult (o : RegisterOperation) (z : Size) (s : M68kiCpu) (words : List UInt32)
    (t : M68kiCpu) : Prop where
  units : RegisterResult o z s words t
  flags : Flags o.kind (half (words.length * z.bytes)) (o.destinations z s words) (sources z s words)
    s.carryIn (o.results z t words) t
  carries : t.xFlag = t.cFlag

/-- Numbers that are in registers are added, taken from one another or negated unit by unit. -/
theorem run_registers (o : RegisterOperation) (z : Size) (s : M68kiCpu) (words : List UInt32)
    (hne : words ≠ []) (h : o.Independent words) : WholeResult o z s words (run (o.step z) s words) := by
  have hunits := registerResult o z s words h
  obtain ⟨low, word, rfl⟩ : ∃ low word, words = low ++ [word] :=
    ⟨_, _, (List.dropLast_append_getLast hne).symm⟩
  obtain ⟨hlow, hlast⟩ := independent_append.mp h
  have hres := registerResult o z s low hlow
  have hrun : run (o.step z) s (low ++ [word]) = o.step z (run (o.step z) s low) word :=
    Machine.run_append ..
  rw [hrun] at hunits ⊢
  generalize run (o.step z) s low = t at *
  obtain ⟨hflags, hresults⟩ := hres.unit hlast
  have hcarries := (step_unit o z t word).carries
  have hdst := o.destination_lt z s.dar word
  have hsrc := unit_lt z s.dar (sourceRegister word)
  rw [pow_bytes] at hdst hsrc
  have hdsts := ofUnits_map_lt z _ low (o.destination_lt z s.dar)
  have hsrcs := ofUnits_map_lt z _ low fun v => unit_lt z s.dar (sourceRegister v)
  have hcarry : (o.step z t word).carryIn = _ :=
    congrArg (fun x : UInt32 => (x.toNat.testBit 8).toNat) hcarries
  refine ⟨hunits, ⟨?_, ?_, ?_⟩, hcarries⟩
  · have hwhole := hunits.result
    rw [hcarry, List.length_append, List.length_singleton, Nat.pow_succ', pow_bytes,
      Nat.mul_assoc, ← pow_bytes] at hwhole
    rw [List.length_append, List.length_singleton, half_succ]
    exact hwhole
  · rw [List.length_append, List.length_singleton, half_succ, hresults, half_append hres.result.lt]
    exact hflags.negative
  · rw [List.length_append, List.length_singleton, half_succ, hflags.overflow, hresults, destinations,
      sources, ofUnits_map_append, ofUnits_map_append]
    exact (hres.result.overflow_append hflags.result s.carryIn_le hdst hsrc hdsts hsrcs).symm

/-- `ADDX.L D1,D0` and `ADDX.L D3,D2`. -/
theorem run_registers_pair :
    WholeResult .addx .long pair [0xd181, 0xd583]
      (run (RegisterOperation.addx.step .long) pair [0xd181, 0xd583]) :=
  run_registers .addx .long pair _ (by decide) (by unfold Independent; decide)

end

end CuteMac.M68k

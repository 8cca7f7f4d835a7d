/-
  Numbers of many units below two address registers, added and subtracted one unit at a time.

  * `Computes`: what an operation does to one unit;
  * `unitBelow`, `wide`: the units of a number below an address, and its value;
  * `opMm_step`, `chain`: one unit, and a run of them;
  * `computes_addx`, `computes_subx`: the binary operations.
-/
import CuteMac.M68k.ArithmeticFlags

namespace CuteMac.M68k

open ByteMemory WideArithmetic Core M68kiCpu

abbrev Op := Size → M68kiCpu → UInt32 → UInt32 → UInt32 × M68kiCpu

namespace M68kiCpu

/-- The flag `X` as a carry. -/
def carryIn (s : M68kiCpu) : Nat := (s.xFlag.toNat.testBit 8).toNat

/-- The flags of another state. -/
def withFlags (s t : M68kiCpu) : M68kiCpu :=
  { s with
    xFlag := t.xFlag
    nFlag := t.nFlag
    notZFlag := t.notZFlag
    vFlag := t.vFlag
    cFlag := t.cFlag }

/-- The flags of another state, other registers and another memory. -/
def leaving (s t : M68kiCpu) (dar : Fin 16 → UInt32) (memory : Memory) : M68kiCpu :=
  { s.withFlags t with
    dar := dar
    memory := memory }

theorem setDar_leaving (s t : M68kiCpu) (dar : Fin 16 → UInt32) (memory : Memory) (reg : Fin 16)
    (value : UInt32) :
    (s.leaving t dar memory).setDar reg value = s.leaving t (Function.update dar reg value) memory := rfl

theorem withFlags_leaving (s t r : M68kiCpu) (dar : Fin 16 → UInt32) (memory : Memory) :
    (s.leaving t dar memory).withFlags r = s.leaving r dar memory := rfl

theorem carryIn_le (s : M68kiCpu) : s.carryIn ≤ 1 := Bool.toNat_le _

theorem toNat_xflagAs1 (s : M68kiCpu) : s.xflagAs1.toNat = s.carryIn := by
  have hshift : (8 : UInt32).toNat % 32 = 8 := rfl
  have hone : (1 : UInt32).toNat = 1 := rfl
  rw [xflagAs1, UInt32.toNat_and, UInt32.toNat_shiftRight, hshift, hone, Nat.and_one_is_mod,
    Nat.shiftRight_eq_div_pow, carryIn, Nat.toNat_testBit]

end M68kiCpu

/-- What the operation does to a unit: the values of the units are below `base`, the carry is in
    the flag `X`, and `Z` is cleared by a result that is not zero. -/
structure Computes (k : Operation) (z : Size) (base : Nat) (value : UInt32 → Nat)
    (Valid : UInt32 → Prop) (f : Op) : Prop where
  result (s : M68kiCpu) {src dst : UInt32} (hs : Valid src) (hd : Valid dst) :
    Result k base (value dst) (value src) s.carryIn (value (f z s src dst).1)
      (f z s src dst).2.carryIn
  valid (s : M68kiCpu) {src dst : UInt32} (hs : Valid src) (hd : Valid dst) :
    Valid (f z s src dst).1
  fits {src : UInt32} (hs : Valid src) : src.toNat < 256 ^ z.bytes
  frame (s : M68kiCpu) (src dst : UInt32) : (f z s src dst).2 = s.withFlags (f z s src dst).2
  zero (s : M68kiCpu) {src dst : UInt32} (hs : Valid src) (hd : Valid dst) :
    (f z s src dst).2.notZFlag = 0 ↔ s.notZFlag = 0 ∧ value (f z s src dst).1 = 0

/-! ## Units -/

/-- The address of `n` units that end right below the address. -/
def below (z : Size) (a : UInt32) (n : Nat) : UInt32 := a - UInt32.ofNat (n * z.bytes)

/-- The unit at index `i` of a number that ends right below the address. -/
def unitBelow (z : Size) (m : Memory) (a : UInt32) (i : Nat) : UInt32 :=
  UInt32.ofNat (bigEndian (take m (below z a (i + 1)) z.bytes))

/-- The number of `n` units below the address. -/
def wide (z : Size) (base : Nat) (value : UInt32 → Nat) (m : Memory) (a : UInt32) : Nat → Nat
  | 0 => 0
  | n + 1 => value (unitBelow z m a n) * base ^ n + wide z base value m a n

section
variable {z : Size} {base : Nat} {value : UInt32 → Nat} {m m' : Memory} {a : UInt32} {n : Nat}

theorem unitBelow_congr {i : Nat}
    (h : ∀ j < z.bytes, m' (below z a (i + 1) + UInt32.ofNat j)
      = m (below z a (i + 1) + UInt32.ofNat j)) :
    unitBelow z m' a i = unitBelow z m a i := by
  rw [unitBelow, unitBelow, take_congr h]

theorem wide_congr (h : ∀ i < n, unitBelow z m' a i = unitBelow z m a i) :
    wide z base value m' a n = wide z base value m a n := by
  induction n with
  | zero => rfl
  | succ n ih =>
    rw [wide, wide, h n (Nat.lt_succ_self n), ih fun i hi => h i (Nat.lt_succ_of_lt hi)]

theorem wide_lt (h : ∀ i < n, value (unitBelow z m a i) < base) :
    wide z base value m a n < base ^ n := by
  induction n with
  | zero => exact Nat.one_pos
  | succ n ih =>
    rw [wide, Nat.pow_succ']
    exact lt_append (h n (Nat.lt_succ_self n)) (ih fun i hi => h i (Nat.lt_succ_of_lt hi))

theorem readSize_eq (s : M68kiCpu) (a : UInt32) :
    s.readSize z a = UInt32.ofNat (bigEndian (take s.memory a z.bytes)) := by
  cases z with
  | byte =>
    have htake : take s.memory a 1 = [s.memory a] :=
      congrArg (fun b => [s.memory b]) (UInt32.add_zero a)
    have hbig : bigEndian [s.memory a] = (s.memory a).toNat := Nat.zero_add _
    show (s.memory a).toUInt32 = UInt32.ofNat (bigEndian (take s.memory a 1))
    rw [htake, hbig, UInt32.ofNat_uInt8ToNat]
  | word => rfl
  | long => rfl

end

/-! ## One unit -/

section
variable {k : Operation} {z : Size} {base : Nat} {value : UInt32 → Nat} {Valid : UInt32 → Prop} {f : Op}
variable {s t : M68kiCpu} {n : Nat}

/-- The registers below which the numbers are. -/
structure Registers (z : Size) (s : M68kiCpu) : Prop where
  ne : s.addressX ≠ s.addressY
  byteX : z = .byte → s.addressX ≠ 15
  byteY : z = .byte → s.addressY ≠ 15

/-- What is there after `n` units: only the flags, the two registers and the memory below the
    first of them have changed. -/
structure Chained (z : Size) (s : M68kiCpu) (n : Nat) (t : M68kiCpu) : Prop where
  frame : t = s.leaving t
    (Function.update (Function.update s.dar s.addressY (below z (s.dar s.addressY) n))
      s.addressX (below z (s.dar s.addressX) n)) t.memory
  outside (a : UInt32) (h : n * z.bytes ≤ (a - below z (s.dar s.addressX) n).toNat) :
    t.memory a = s.memory a

theorem below_zero (z : Size) (a : UInt32) : below z a 0 = a := by
  rw [below, Nat.zero_mul]
  exact UInt32.sub_zero a

theorem chained_zero (z : Size) (s : M68kiCpu) : Chained z s 0 s := by
  refine ⟨?_, fun _ _ => rfl⟩
  rw [below_zero, below_zero, Function.update_eq_self, Function.update_eq_self]
  rfl

theorem Chained.addressX (h : Chained z s n t) : t.addressX = s.addressX := by rw [h.frame]; rfl

theorem Chained.addressY (h : Chained z s n t) : t.addressY = s.addressY := by rw [h.frame]; rfl

theorem Chained.darX (h : Chained z s n t) : t.dar s.addressX = below z (s.dar s.addressX) n := by
  rw [h.frame]
  exact Function.update_self ..

theorem Chained.darY (hr : Registers z s) (h : Chained z s n t) :
    t.dar s.addressY = below z (s.dar s.addressY) n := by
  rw [h.frame]
  exact (Function.update_of_ne hr.ne.symm ..).trans (Function.update_self ..)

theorem toNat_below (z : Size) (a : UInt32) (n : Nat) :
    (below z a n).toNat = (2 ^ 32 - n * z.bytes % 2 ^ 32 + a.toNat) % 2 ^ 32 := by
  rw [below, UInt32.toNat_sub, UInt32.toNat_ofNat']

/-- The next address of a register. -/
theorem below_stride {reg : Fin 16} (hr : z = .byte → reg ≠ 15) (a : UInt32) (n : Nat) :
    below z a n - stride z reg = below z a (n + 1) := by
  have hstride : stride z reg = UInt32.ofNat z.bytes := if_neg fun h => hr h.1 h.2
  rw [hstride, below, below, Nat.succ_mul, UInt32.ofNat_add]
  grind

/-- How far a byte of a unit is from what has been written. -/
theorem below_distance {j : Nat} (hj : j < z.bytes) (x a : UInt32) (n : Nat) :
    below z a (n + 1) + UInt32.ofNat j - below z x n = 0 - (x - a + UInt32.ofNat (z.bytes - j)) := by
  rw [below, below, Nat.succ_mul, UInt32.ofNat_add, UInt32.ofNat_sub (Nat.le_of_lt hj)]
  grind

/-- A unit is read as it was before. -/
theorem Chained.unitBelow_eq (h : Chained z s n t) {a : UInt32}
    (hover : (s.dar s.addressX - a).toNat + (n + 1) * z.bytes ≤ 2 ^ 32) :
    unitBelow z t.memory a n = unitBelow z s.memory a n := by
  refine unitBelow_congr fun j hj => h.outside _ ?_
  rw [below_distance hj]
  rw [Nat.succ_mul] at hover
  have hw : z.bytes ≤ 4 := by cases z <;> decide
  have hsub : (UInt32.ofNat (z.bytes - j)).toNat = z.bytes - j := by
    rw [UInt32.toNat_ofNat', Nat.mod_eq_of_lt (by omega)]
  rw [UInt32.toNat_sub, UInt32.toNat_add, hsub]
  have hzero : (0 : UInt32).toNat = 0 := rfl
  omega

/-- Two registers move on. -/
theorem update_again {ι α : Type} [DecidableEq ι] {x y : ι} (d : ι → α) (a b c e : α) :
    Function.update (Function.update (Function.update (Function.update d y a) x b) y c) x e
      = Function.update (Function.update d y c) x e := by
  funext i
  by_cases hx : i = x
  · rw [hx, Function.update_self, Function.update_self]
  · by_cases hy : i = y
    · rw [Function.update_of_ne hx, Function.update_of_ne hx, hy, Function.update_self,
        Function.update_self]
    · simp only [Function.update_of_ne hx, Function.update_of_ne hy]

/-- What is outside of the units so far is outside of the one before, too. -/
theorem outside_succ {a x : UInt32} (h : (n + 1) * z.bytes ≤ (a - below z x (n + 1)).toNat) :
    n * z.bytes ≤ (a - below z x n).toNat ∧ z.bytes ≤ (a - below z x (n + 1)).toNat := by
  have hstep : a - below z x n = (a - below z x (n + 1)) - UInt32.ofNat z.bytes := by
    rw [below, below, Nat.succ_mul, UInt32.ofNat_add]
    grind
  rw [Nat.succ_mul] at h
  have hlt := (a - below z x (n + 1)).toNat_lt
  have hw : z.bytes ≤ 4 := by cases z <;> decide
  have hbytes : (UInt32.ofNat z.bytes).toNat = z.bytes := by
    rw [UInt32.toNat_ofNat', Nat.mod_eq_of_lt (by omega)]
  rw [hstep, UInt32.toNat_sub, hbytes]
  omega

/-- One unit: the operands are those of the beginning. -/
theorem opMm_step (hr : Registers z s) (h : Chained z s n t)
    (hover : (s.dar s.addressX - s.dar s.addressY).toNat + (n + 1) * z.bytes ≤ 2 ^ 32)
    (hframe : ∀ u src dst, (f z u src dst).2 = u.withFlags (f z u src dst).2) :
    ∃ u, u = { t with dar := u.dar } ∧
      opMm z t f = (f z u (unitBelow z s.memory (s.dar s.addressY) n)
          (unitBelow z s.memory (s.dar s.addressX) n)).2.writeSize z
            (below z (s.dar s.addressX) (n + 1))
            (f z u (unitBelow z s.memory (s.dar s.addressY) n)
              (unitBelow z s.memory (s.dar s.addressX) n)).1 ∧
      Chained z s (n + 1) (opMm z t f) := by
  have hy : t.dar s.addressY - stride z s.addressY = below z (s.dar s.addressY) (n + 1) := by
    rw [h.darY hr, below_stride hr.byteY]
  have hx : t.dar s.addressX - stride z s.addressX = below z (s.dar s.addressX) (n + 1) := by
    rw [h.darX, below_stride hr.byteX]
  obtain ⟨u, hu⟩ : ∃ u, u = (t.setDar s.addressY (below z (s.dar s.addressY) (n + 1))).setDar
      s.addressX (below z (s.dar s.addressX) (n + 1)) := ⟨_, rfl⟩
  have hsrc : t.readSize z (below z (s.dar s.addressY) (n + 1))
      = unitBelow z s.memory (s.dar s.addressY) n := by
    rw [readSize_eq]
    exact h.unitBelow_eq hover
  have hdst : t.readSize z (below z (s.dar s.addressX) (n + 1))
      = unitBelow z s.memory (s.dar s.addressX) n := by
    rw [readSize_eq]
    refine h.unitBelow_eq ?_
    rw [UInt32.sub_self]
    exact Nat.le_trans (Nat.add_le_add_right (Nat.zero_le _) _) hover
  generalize unitBelow z s.memory (s.dar s.addressY) n = src at *
  generalize unitBelow z s.memory (s.dar s.addressX) n = dst at *
  have heq : opMm z t f = (f z u src dst).2.writeSize z (below z (s.dar s.addressX) (n + 1))
      (f z u src dst).1 := by
    have hpy : predecrement z t t.addressY = (below z (s.dar s.addressY) (n + 1),
        t.setDar s.addressY (below z (s.dar s.addressY) (n + 1))) := by
      rw [predecrement, h.addressY, hy]
    have hpx : predecrement z (t.setDar s.addressY (below z (s.dar s.addressY) (n + 1))) s.addressX
        = (below z (s.dar s.addressX) (n + 1), u) := by
      have hdar : (t.setDar s.addressY (below z (s.dar s.addressY) (n + 1))).dar s.addressX
          = t.dar s.addressX := Function.update_of_ne hr.ne ..
      rw [predecrement, hdar, hx, hu]
    have hax : (t.setDar s.addressY (below z (s.dar s.addressY) (n + 1))).addressX = s.addressX :=
      h.addressX
    have hsrc' : (t.setDar s.addressY (below z (s.dar s.addressY) (n + 1))).readSize z
        (below z (s.dar s.addressY) (n + 1)) = src := hsrc
    have hdst' : u.readSize z (below z (s.dar s.addressX) (n + 1)) = dst := by
      rw [← hdst, hu]
      rfl
    rw [opMm, hpy]
    simp only [hax, hpx, hsrc', hdst']
  have hu' : u = s.leaving t
      (Function.update (Function.update s.dar s.addressY (below z (s.dar s.addressY) (n + 1)))
        s.addressX (below z (s.dar s.addressX) (n + 1))) t.memory := by
    have hset : u = ((s.leaving t _ t.memory).setDar s.addressY _).setDar s.addressX _ :=
      hu.trans (by rw [← h.frame])
    rw [hset, setDar_leaving, setDar_leaving, update_again]
  have hafter : (f z u src dst).2 = s.leaving (f z u src dst).2
      (Function.update (Function.update s.dar s.addressY (below z (s.dar s.addressY) (n + 1)))
        s.addressX (below z (s.dar s.addressX) (n + 1))) t.memory := by
    rw [← withFlags_leaving s t, ← hu']
    exact hframe u src dst
  refine ⟨u, ?_, heq, ?_⟩
  · subst hu
    rfl
  rw [heq]
  generalize (f z u src dst).1 = value
  generalize (f z u src dst).2 = r at hafter ⊢
  have hmem : r.memory = t.memory := by
    rw [hafter]
    rfl
  constructor
  · have hwrite : ∀ (a : UInt32) (d : Fin 16 → UInt32), r = s.leaving r d t.memory →
        r.writeSize z a value = s.leaving (r.writeSize z a value) d (r.writeSize z a value).memory := by
      intro a d hd
      rw [hd]
      rfl
    exact hwrite _ _ hafter
  · intro a ha
    obtain ⟨hlow, hunit⟩ := outside_succ ha
    show put r.memory (below z (s.dar s.addressX) (n + 1)) (bytesOf value.toNat z.bytes) a = s.memory a
    rw [put_apply (by rw [length_bytesOf]; cases z <;> decide),
      List.getElem?_eq_none (by rw [length_bytesOf]; exact hunit), hmem]
    exact h.outside a hlow

/-! ## A run of units -/

/-- A unit that has been written, and the ones above which it is. -/
theorem unitBelow_put (m : Memory) (x value : UInt32) {i n : Nat} (hi : i ≤ n)
    (hn : (n + 1) * z.bytes ≤ 2 ^ 32) (hv : value.toNat < 256 ^ z.bytes) :
    unitBelow z (put m (below z x (n + 1)) (bytesOf value.toNat z.bytes)) x i
      = if i = n then value else unitBelow z m x i := by
  have hw : z.bytes ≤ 4 := by cases z <;> decide
  have hlen := length_bytesOf value.toNat z.bytes
  by_cases hin : i = n
  · subst hin
    have htake : take (put m (below z x (i + 1)) (bytesOf value.toNat z.bytes)) (below z x (i + 1))
        (bytesOf value.toNat z.bytes).length = bytesOf value.toNat z.bytes := take_put (by omega)
    rw [hlen] at htake
    rw [if_pos rfl, unitBelow, htake, bigEndian_bytesOf, Nat.mod_eq_of_lt hv, UInt32.ofNat_toNat]
  · rw [if_neg hin]
    refine unitBelow_congr fun j hj => ?_
    obtain ⟨d, rfl⟩ : ∃ d, n = i + 1 + d := ⟨n - (i + 1), by omega⟩
    -- the unit is above the one that is written
    have hdist : below z x (i + 1) + UInt32.ofNat j - below z x (i + 1 + d + 1)
        = UInt32.ofNat ((d + 1) * z.bytes + j) := by
      have hmul : (i + 1 + d + 1) * z.bytes = (i + 1) * z.bytes + (d + 1) * z.bytes := by ring
      rw [below, below, hmul, UInt32.ofNat_add, UInt32.ofNat_add]
      grind
    have hsplit : (i + 1 + d + 1) * z.bytes = (i + 1) * z.bytes + d * z.bytes + z.bytes := by ring
    have hsucc : (d + 1) * z.bytes = d * z.bytes + z.bytes := by ring
    have hpos : z.bytes ≤ (i + 1) * z.bytes := Nat.le_mul_of_pos_left _ (Nat.succ_pos i)
    rw [put_apply (by omega), hdist, UInt32.toNat_ofNat',
      List.getElem?_eq_none (by rw [hlen, Nat.mod_eq_of_lt (by omega)]; omega)]
    rfl

/-- The numbers after `n` units. -/
structure ChainResult (k : Operation) (z : Size) (base : Nat) (value : UInt32 → Nat)
    (Valid : UInt32 → Prop) (s : M68kiCpu) (n : Nat) (t : M68kiCpu) : Prop where
  chained : Chained z s n t
  result : Result k (base ^ n) (wide z base value s.memory (s.dar s.addressX) n)
    (wide z base value s.memory (s.dar s.addressY) n) s.carryIn
    (wide z base value t.memory (s.dar s.addressX) n) t.carryIn
  zero : t.notZFlag = 0 ↔ s.notZFlag = 0 ∧ wide z base value t.memory (s.dar s.addressX) n = 0
  valid : ∀ i < n, Valid (unitBelow z t.memory (s.dar s.addressX) i)

theorem chainResult_zero (k : Operation) (z : Size) (base : Nat) (value : UInt32 → Nat)
    (Valid : UInt32 → Prop) (s : M68kiCpu) : ChainResult k z base value Valid s 0 s :=
  ⟨chained_zero z s, Result.empty s.carryIn_le, (and_iff_left rfl).symm,
    fun _ h => absurd h (Nat.not_lt_zero _)⟩

/-- The units that are there after one more. -/
theorem Chained.unit (hf : Computes k z base value Valid f) (hr : Registers z s) (h : Chained z s n t)
    (hover : (s.dar s.addressX - s.dar s.addressY).toNat + (n + 1) * z.bytes ≤ 2 ^ 32)
    (hx : Valid (unitBelow z s.memory (s.dar s.addressX) n))
    (hy : Valid (unitBelow z s.memory (s.dar s.addressY) n)) :
    ∃ u r, r = f z u (unitBelow z s.memory (s.dar s.addressY) n)
        (unitBelow z s.memory (s.dar s.addressX) n) ∧
      u.carryIn = t.carryIn ∧ u.notZFlag = t.notZFlag ∧ Chained z s (n + 1) (opMm z t f) ∧
      opMm z t f = r.2.writeSize z (below z (s.dar s.addressX) (n + 1)) r.1 ∧
      ∀ i ≤ n, unitBelow z (opMm z t f).memory (s.dar s.addressX) i
        = if i = n then r.1 else unitBelow z t.memory (s.dar s.addressX) i := by
  obtain ⟨u, hu, heq, hch⟩ := opMm_step hr h hover hf.frame
  have hmem : (f z u (unitBelow z s.memory (s.dar s.addressY) n)
      (unitBelow z s.memory (s.dar s.addressX) n)).2.memory = t.memory := by
    rw [hf.frame, hu]
    rfl
  have hfits := hf.fits (hf.valid u hy hx)
  refine ⟨u, _, rfl, ?_, ?_, hch, heq, ?_⟩
  · rw [hu]
    rfl
  · rw [hu]
  · intro i hi
    rw [heq, ← hmem]
    exact unitBelow_put _ (s.dar s.addressX) _ hi (by omega) hfits

theorem wide_succ_of_units {m m' : Memory} {x r : UInt32}
    (h : ∀ i ≤ n, unitBelow z m' x i = if i = n then r else unitBelow z m x i) :
    wide z base value m' x (n + 1) = value r * base ^ n + wide z base value m x n := by
  have hlow : wide z base value m' x n = wide z base value m x n :=
    wide_congr fun i hi => (h i (Nat.le_of_lt hi)).trans (if_neg (Nat.ne_of_lt hi))
  rw [wide, hlow, h n (Nat.le_refl n), if_pos rfl]

/-- One unit more. -/
theorem ChainResult.step (hf : Computes k z base value Valid f) (hr : Registers z s)
    (h : ChainResult k z base value Valid s n t)
    (hover : (s.dar s.addressX - s.dar s.addressY).toNat + (n + 1) * z.bytes ≤ 2 ^ 32)
    (hx : Valid (unitBelow z s.memory (s.dar s.addressX) n))
    (hy : Valid (unitBelow z s.memory (s.dar s.addressY) n)) :
    ChainResult k z base value Valid s (n + 1) (opMm z t f) := by
  obtain ⟨u, r, hrdef, hcarry, hnotZ, hch, heq, hunits⟩ := h.chained.unit hf hr hover hx hy
  have hunit := hf.result u hy hx
  have hzero := hf.zero u hy hx
  have hvalid := hf.valid u hy hx
  rw [← hrdef] at hunit hzero hvalid
  have hpos : 0 < base ^ n := Nat.zero_lt_of_lt h.result.lt
  refine ⟨hch, ?_, ?_, ?_⟩
  · have hout : (opMm z t f).carryIn = r.2.carryIn := by
      rw [heq]
      rfl
    rw [hcarry] at hunit
    rw [wide_succ_of_units hunits, hout, Nat.pow_succ']
    exact h.result.append hunit
  · have hflag : (opMm z t f).notZFlag = r.2.notZFlag := by
      rw [heq]
      rfl
    rw [hflag, hzero, hnotZ, h.zero, wide_succ_of_units hunits, append_eq_zero hpos]
    tauto
  · intro i hi
    rw [hunits i (Nat.le_of_lt_succ hi)]
    by_cases hin : i = n
    · rw [if_pos hin]
      exact hvalid
    · rw [if_neg hin]
      exact h.valid i (by omega)

/-- `n` units, from the lowest one. -/
theorem chainResult (hf : Computes k z base value Valid f) (hr : Registers z s) (n : Nat)
    (hover : (s.dar s.addressX - s.dar s.addressY).toNat + n * z.bytes ≤ 2 ^ 32)
    (hx : ∀ i < n, Valid (unitBelow z s.memory (s.dar s.addressX) i))
    (hy : ∀ i < n, Valid (unitBelow z s.memory (s.dar s.addressY) i)) :
    ChainResult k z base value Valid s n ((fun t => opMm z t f)^[n] s) := by
  induction n with
  | zero => exact chainResult_zero ..
  | succ n ih =>
    have hlt : n * z.bytes ≤ (n + 1) * z.bytes := Nat.mul_le_mul_right _ (Nat.le_succ n)
    rw [Function.iterate_succ_apply']
    exact (ih (by omega) (fun i hi => hx i (Nat.lt_succ_of_lt hi))
      (fun i hi => hy i (Nat.lt_succ_of_lt hi))).step hf hr hover (hx n (Nat.lt_succ_self n))
        (hy n (Nat.lt_succ_self n))

end

/-! ## Binary numbers -/

namespace M68kiCpu

/-- `ADDX` and `SUBX`. -/
def extended : Operation → Op
  | .sum => addx
  | .difference => subx

end M68kiCpu

/-- The flags `C`, `N` and `V` of a result for numbers with `2 * h` values. -/
structure Flags (k : Operation) (h dst src b r : Nat) (t : M68kiCpu) : Prop where
  result : Result k (2 * h) dst src b r (t.cFlag.toNat.testBit 8).toNat
  negative : t.nFlag.toNat.testBit 7 = true ↔ h ≤ r
  overflow : t.vFlag.toNat.testBit 7 = true ↔
    signed h r ≠ k.exact (signed h dst) (signed h src) b

section
variable {z : Size} {src dst : UInt32}

theorem toNat_decide_carry {c : Nat} (h : c ≤ 1) : (decide (c = 1)).toNat = c := by
  have hcases : c = 0 ∨ c = 1 := by omega
  rcases hcases with rfl | rfl <;> rfl

section
variable {b : UInt32} {t : M68kiCpu} (hs : src.toNat < 2 * z.half) (hd : dst.toNat < 2 * z.half)
  (hb : b.toNat ≤ 1)
include hs hd hb

theorem flags_sum (hn : t.nFlag = z.nflag (src + dst + b))
    (hc : t.cFlag = z.cflagAdd src dst (src + dst + b))
    (hv : t.vFlag = z.vflagAdd src dst (src + dst + b)) :
    Flags .sum z.half dst.toNat src.toNat b.toNat (z.maskOutAbove (src + dst + b)).toNat t := by
  obtain ⟨c, hres, hcarry, hover⟩ := sum_unit z hs hd hb
  refine ⟨?_, ?_, ?_⟩
  · rw [hc, hcarry, toNat_decide_carry hres.carry]
    exact hres
  · rw [hn, z.nflag_bit, z.top_eq, decide_eq_true_iff]
  · rw [hv, hover, decide_eq_true_iff]

theorem flags_difference (hn : t.nFlag = z.nflag (dst - src - b))
    (hc : t.cFlag = z.cflagSub src dst (dst - src - b))
    (hv : t.vFlag = z.vflagSub src dst (dst - src - b)) :
    Flags .difference z.half dst.toNat src.toNat b.toNat (z.maskOutAbove (dst - src - b)).toNat t := by
  obtain ⟨c, hres, hcarry, hover⟩ := difference_unit z hs hd hb
  refine ⟨?_, ?_, ?_⟩
  · rw [hc, hcarry, toNat_decide_carry hres.carry]
    exact hres
  · rw [hn, z.nflag_bit, z.top_eq, decide_eq_true_iff]
  · rw [hv, hover, decide_eq_true_iff]

end

theorem flags_extended (k : Operation) (s : M68kiCpu) (hs : src.toNat < 2 * z.half)
    (hd : dst.toNat < 2 * z.half) :
    Flags k z.half dst.toNat src.toNat s.carryIn (extended k z s src dst).1.toNat
        (extended k z s src dst).2 ∧
      (extended k z s src dst).2.xFlag = (extended k z s src dst).2.cFlag := by
  have hb := s.carryIn_le
  rw [← toNat_xflagAs1] at hb ⊢
  cases k with
  | sum => exact ⟨flags_sum hs hd hb rfl rfl rfl, rfl⟩
  | difference => exact ⟨flags_difference hs hd hb rfl rfl rfl, rfl⟩

theorem pow_bytes (z : Size) : 256 ^ z.bytes = 2 * z.half := by cases z <;> rfl

theorem or_eq_zero (a b : UInt32) : a ||| b = 0 ↔ a = 0 ∧ b = 0 := by
  rw [← UInt32.toNat_inj, ← UInt32.toNat_inj, ← UInt32.toNat_inj, UInt32.toNat_or]
  exact Nat.or_eq_zero_iff

theorem computes_extended (k : Operation) (z : Size) :
    Computes k z (256 ^ z.bytes) UInt32.toNat (fun a => a.toNat < 256 ^ z.bytes) (extended k) := by
  rw [pow_bytes]
  refine ⟨fun s src dst hs hd => ?_, fun s src dst hs hd => ?_, fun h => pow_bytes z ▸ h, ?_, ?_⟩
  · obtain ⟨hflags, hx⟩ := flags_extended k s hs hd
    have hcarry : (extended k z s src dst).2.carryIn = _ :=
      congrArg (fun x : UInt32 => (x.toNat.testBit 8).toNat) hx
    rw [hcarry]
    exact hflags.result
  · exact (flags_extended k s hs hd).1.result.lt
  · intro s src dst
    cases k <;> rfl
  · intro s src dst hs hd
    cases k with
    | sum => exact (or_eq_zero _ _).trans (and_congr_right' UInt32.toNat_inj.symm)
    | difference => exact (or_eq_zero _ _).trans (and_congr_right' UInt32.toNat_inj.symm)

/-- The big-endian number of `size` bytes right below the address. -/
def numberBelow (m : Memory) (a : UInt32) (size : Nat) : Nat :=
  bigEndian (take m (a - UInt32.ofNat size) size)

theorem toNat_unitBelow (z : Size) (m : Memory) (a : UInt32) (i : Nat) :
    (unitBelow z m a i).toNat = bigEndian (take m (below z a (i + 1)) z.bytes) := by
  have hlt := bigEndian_lt (take m (below z a (i + 1)) z.bytes)
  have hle : 256 ^ z.bytes ≤ 2 ^ 32 := by cases z <;> decide
  rw [length_take] at hlt
  rw [unitBelow, UInt32.toNat_ofNat', Nat.mod_eq_of_lt (by omega)]

theorem unitBelow_lt (z : Size) (m : Memory) (a : UInt32) (i : Nat) :
    (unitBelow z m a i).toNat < 256 ^ z.bytes := by
  rw [toNat_unitBelow]
  exact (bigEndian_lt _).trans_eq (by rw [length_take])

theorem wide_eq_numberBelow (z : Size) (m : Memory) (a : UInt32) (n : Nat) :
    wide z (256 ^ z.bytes) UInt32.toNat m a n = numberBelow m a (n * z.bytes) := by
  induction n with
  | zero =>
    rw [Nat.zero_mul]
    rfl
  | succ n ih =>
    have hnext : below z a (n + 1) + UInt32.ofNat z.bytes = a - UInt32.ofNat (n * z.bytes) := by
      rw [below, Nat.succ_mul, UInt32.ofNat_add]
      grind
    have htake := take_add m (below z a (n + 1)) z.bytes (n * z.bytes)
    rw [hnext, Nat.add_comm z.bytes, ← Nat.succ_mul] at htake
    have hnumber : numberBelow m a ((n + 1) * z.bytes)
        = bigEndian (take m (below z a (n + 1)) ((n + 1) * z.bytes)) := rfl
    rw [wide, ih, toNat_unitBelow, hnumber, htake, bigEndian_append, length_take, ← Nat.pow_mul,
      Nat.mul_comm z.bytes n]
    rfl

theorem half_succ (z : Size) (n : Nat) :
    half ((n + 1) * z.bytes) = z.half * (256 ^ z.bytes) ^ n := by
  have hpow : 256 ^ ((n + 1) * z.bytes) = 2 * (z.half * (256 ^ z.bytes) ^ n) := by
    rw [Nat.mul_comm (n + 1), Nat.pow_mul, Nat.pow_succ', ← Nat.mul_assoc, ← pow_bytes]
  rw [half, hpow, Nat.mul_div_cancel_left _ Nat.two_pos]

/-- What `n` times `ADDX -(Ay),-(Ax)` or `SUBX -(Ay),-(Ax)` leave. -/
structure WideResult (k : Operation) (z : Size) (s : M68kiCpu) (n : Nat) (t : M68kiCpu) : Prop where
  chained : Chained z s n t
  flags : Flags k (half (n * z.bytes)) (numberBelow s.memory (s.dar s.addressX) (n * z.bytes))
    (numberBelow s.memory (s.dar s.addressY) (n * z.bytes)) s.carryIn
    (numberBelow t.memory (s.dar s.addressX) (n * z.bytes)) t
  carries : t.xFlag = t.cFlag
  zero : t.notZFlag = 0 ↔ s.notZFlag = 0 ∧ numberBelow t.memory (s.dar s.addressX) (n * z.bytes) = 0

/-- A number is added to another one, or taken from it, unit by unit. -/
theorem iterate_opMm_extended (k : Operation) (z : Size) (s : M68kiCpu) (hr : Registers z s) {n : Nat}
    (hn : 0 < n) (hover : (s.dar s.addressX - s.dar s.addressY).toNat + n * z.bytes ≤ 2 ^ 32) :
    WideResult k z s n ((fun t => opMm z t (extended k))^[n] s) := by
  have hf := computes_extended k z
  have hunits := fun a i (_ : i < n) => unitBelow_lt z s.memory a i
  have hwhole := chainResult hf hr n hover (hunits _) (hunits _)
  obtain ⟨n, rfl⟩ : ∃ m, n = m + 1 := ⟨n - 1, by omega⟩
  have hle := Nat.mul_le_mul_right z.bytes (Nat.le_add_right n 1)
  have hlow := chainResult hf hr n (by omega) (fun i _ => unitBelow_lt z _ _ i)
    (fun i _ => unitBelow_lt z _ _ i)
  rw [Function.iterate_succ_apply'] at hwhole ⊢
  generalize (fun t => opMm z t (extended k))^[n] s = t at *
  have hx := unitBelow_lt z s.memory (s.dar s.addressX) n
  have hy := unitBelow_lt z s.memory (s.dar s.addressY) n
  obtain ⟨u, r, hrdef, hcarry, -, -, heq, hnew⟩ := hlow.chained.unit hf hr hover hx hy
  rw [pow_bytes] at hx hy
  obtain ⟨hunit, hxc⟩ := flags_extended k u hy hx
  rw [hcarry, ← hrdef] at hunit
  rw [← hrdef] at hxc
  have hflags : (opMm z t (extended k)).cFlag = r.2.cFlag ∧ (opMm z t (extended k)).xFlag = r.2.xFlag ∧
      (opMm z t (extended k)).nFlag = r.2.nFlag ∧ (opMm z t (extended k)).vFlag = r.2.vFlag := by
    rw [heq]
    exact ⟨rfl, rfl, rfl, rfl⟩
  obtain ⟨hc, hxf, hnf, hvf⟩ := hflags
  have hvalue : numberBelow (opMm z t (extended k)).memory (s.dar s.addressX) ((n + 1) * z.bytes)
      = r.1.toNat * (256 ^ z.bytes) ^ n
        + wide z (256 ^ z.bytes) UInt32.toNat t.memory (s.dar s.addressX) n := by
    rw [← wide_eq_numberBelow, wide_succ_of_units hnew]
  have hzero := hwhole.zero
  rw [wide_eq_numberBelow] at hzero
  refine ⟨hwhole.chained, ⟨?_, ?_, ?_⟩, by rw [hc, hxf, hxc], hzero⟩
  · have hres := hlow.result.append hunit.result
    rw [hc, hvalue, half_succ, ← wide_eq_numberBelow, ← wide_eq_numberBelow, ← Nat.mul_assoc]
    exact hres
  · rw [hnf, hvalue, half_succ, half_append hlow.result.lt]
    exact hunit.negative
  · rw [hvf, hunit.overflow, hvalue, half_succ, ← wide_eq_numberBelow, ← wide_eq_numberBelow]
    exact (hlow.result.overflow_append hunit.result s.carryIn_le hx hy
      (wide_lt fun i _ => unitBelow_lt z _ _ i) (wide_lt fun i _ => unitBelow_lt z _ _ i)).symm

/-- `ADDX -(Ay),-(Ax)` and `SUBX -(Ay),-(Ax)`. -/
def extendedMm (z : Size) : Operation → M68kiCpu → M68kiCpu
  | .sum => opAddxMm z
  | .difference => opSubxMm z

/-- A number of `n` operands is added to another one, or taken from it. -/
theorem iterate_extendedMm (k : Operation) (z : Size) (s : M68kiCpu) (hr : Registers z s) {n : Nat}
    (hn : 0 < n) (hover : (s.dar s.addressX - s.dar s.addressY).toNat + n * z.bytes ≤ 2 ^ 32) :
    WideResult k z s n ((extendedMm z k)^[n] s) := by
  cases k with
  | sum => exact iterate_opMm_extended .sum z s hr hn hover
  | difference => exact iterate_opMm_extended .difference z s hr hn hover

/-- `A1` is the destination and `A0` the source, below which there is a one. -/
def pair : M68kiCpu where
  cpuType := .m68000
  dar i := if i = 8 then 0x2000 else 0x1000
  darSave _ := 0
  sp _ := 0
  ir := 0x9308
  memory a := if a = 0x1fff then 1 else 0

theorem iterate_extendedMm_pair : WideResult .difference .long pair 2 ((opSubxMm .long)^[2] pair) :=
  iterate_extendedMm .difference .long pair ⟨by decide, by decide, by decide⟩ (by decide) (by decide)

end

end CuteMac.M68k

/-
  The transparent translation registers of the 68030.

  * `Selects`, `Covers`: the accesses that a register is for;
  * `pmmuMatchTt_iff`: those that the code finds;
  * `Bypasses`, `bypasses_iff`: the accesses that pass untranslated;
  * `bypasses_iff_covers`: when they are those of the two registers.

  The direction of an access is compared at the place of the mask, where a register
  without the mask has no bit: the code takes its writes, whatever its R/W bit says.
-/
import CuteMac.Cpu.TranslationTables

namespace CuteMac.Cpu

open Pages

/-! ## What a register is for -/

/-- The register is enabled, and agrees with the top byte of the address and with the function
    code on every bit that it does not mask. -/
structure Selects (tt logical fc : UInt32) : Prop where
  enabled : tt.toNat.testBit 15 = true
  address : ∀ i < 8, tt.toNat.testBit (16 + i) = false →
    logical.toNat.testBit (24 + i) = tt.toNat.testBit (24 + i)
  functionCode : ∀ i < 3, tt.toNat.testBit i = false →
    fc.toNat.testBit i = tt.toNat.testBit (4 + i)

/-- The read/write mask bit. -/
def rwMasked (tt : UInt32) : Bool := tt.toNat.testBit 8

/-- The read/write bit, which is set for reads. -/
def rwRead (tt : UInt32) : Bool := tt.toNat.testBit 9

/-- The accesses of a register. -/
def Covers (tt logical fc : UInt32) (rw : Bool) : Prop :=
  Selects tt logical fc ∧ (rwMasked tt = true ∨ rwRead tt = rw)

/-! ## What the code compares -/

theorem testBit_topByte (i : Nat) :
    (0xff000000 : UInt32).toNat.testBit i = decide (24 ≤ i ∧ i < 32) := by
  by_cases hi : i < 32
  · revert i
    decide
  · rw [testBit_of_le _ (Nat.not_lt.1 hi), decide_eq_false (fun h => hi h.2)]

theorem testBit_seven (i : Nat) : (7 : UInt32).toNat.testBit i = decide (i < 3) := by
  by_cases hi : i < 32
  · revert i
    decide
  · rw [testBit_of_le _ (Nat.not_lt.1 hi), decide_eq_false (by omega)]

theorem and_bit_eq_zero (tt : UInt32) (n : Nat) {m : UInt32} (hm : m.toNat = 2 ^ n) :
    tt &&& m = 0 ↔ tt.toNat.testBit n = false := by
  rw [← UInt32.toNat_inj, UInt32.toNat_and, hm, Nat.and_two_pow]
  cases tt.toNat.testBit n with
  | false => simp
  | true => simp

theorem addressMask_iff (tt logical : UInt32) :
    logical &&& (((tt <<< (8 : UInt32)) &&& 0xff000000) ^^^ 0xff000000) =
        (tt &&& 0xff000000) &&& (((tt <<< (8 : UInt32)) &&& 0xff000000) ^^^ 0xff000000) ↔
      ∀ i < 8, tt.toNat.testBit (16 + i) = false →
        logical.toNat.testBit (24 + i) = tt.toNat.testBit (24 + i) := by
  have hmask : ∀ i, (((tt <<< (8 : UInt32)) &&& 0xff000000) ^^^ 0xff000000).toNat.testBit i =
      (decide (24 ≤ i ∧ i < 32) && !tt.toNat.testBit (i - 8)) := by
    intro i
    rw [UInt32.toNat_xor, Nat.testBit_xor, UInt32.toNat_and, Nat.testBit_and, testBit_topByte,
      testBit_shiftLeft (by decide)]
    by_cases hi : 24 ≤ i ∧ i < 32
    · have h8 : (8 : UInt32).toNat ≤ i := show 8 ≤ i by omega
      rw [decide_eq_true hi, decide_eq_true hi.2, decide_eq_true h8]
      cases h : tt.toNat.testBit (i - (8 : UInt32).toNat) <;>
        · have h' : tt.toNat.testBit (i - 8) = _ := h
          rw [h']
          rfl
    · rw [decide_eq_false hi, Bool.and_false, Bool.false_and]
      rfl
  rw [and_inj_iff]
  constructor
  · intro h i hi hclear
    have hbit := h (24 + i) (by
      rw [hmask, decide_eq_true (by omega), show 24 + i - 8 = 16 + i by omega, hclear]
      rfl)
    rw [hbit, UInt32.toNat_and, Nat.testBit_and, testBit_topByte, decide_eq_true (by omega),
      Bool.and_true]
  · intro h i hi
    rw [hmask, Bool.and_eq_true, decide_eq_true_eq, Bool.not_eq_true'] at hi
    obtain ⟨⟨hlow, hhigh⟩, hclear⟩ := hi
    have hbit := h (i - 24) (by omega) (by rwa [show 16 + (i - 24) = i - 8 by omega])
    rw [show 24 + (i - 24) = i by omega] at hbit
    rw [hbit, UInt32.toNat_and, Nat.testBit_and, testBit_topByte, decide_eq_true ⟨hlow, hhigh⟩,
      Bool.and_true]

theorem fcMask_iff (tt fc : UInt32) :
    fc &&& (~~~tt &&& 7) = ((tt >>> (4 : UInt32)) &&& 7) &&& (~~~tt &&& 7) ↔
      ∀ i < 3, tt.toNat.testBit i = false → fc.toNat.testBit i = tt.toNat.testBit (4 + i) := by
  have hmask : ∀ i, (~~~tt &&& 7).toNat.testBit i = (decide (i < 3) && !tt.toNat.testBit i) := by
    intro i
    rw [UInt32.toNat_and, Nat.testBit_and, testBit_seven]
    by_cases hi : i < 3
    · rw [testBit_not _ (by omega), Bool.and_comm]
    · rw [decide_eq_false hi, Bool.and_false, Bool.false_and]
  have hbits : ∀ i < 3, ((tt >>> (4 : UInt32)) &&& 7).toNat.testBit i = tt.toNat.testBit (4 + i) := by
    intro i hi
    rw [UInt32.toNat_and, Nat.testBit_and, testBit_seven, decide_eq_true hi, Bool.and_true,
      testBit_shiftRight (by decide)]
    rfl
  rw [and_inj_iff]
  constructor
  · intro h i hi hclear
    rw [h i (by rw [hmask, decide_eq_true hi, hclear]; rfl), hbits i hi]
  · intro h i hi
    rw [hmask, Bool.and_eq_true, decide_eq_true_eq, Bool.not_eq_true'] at hi
    rw [h i hi.1 hi.2, hbits i hi.1]

/-- The direction is compared with a bit that is never set. -/
theorem rwMask_iff (tt : UInt32) (rw : Bool) :
    (if rw then 0x100 else 0) &&& (~~~tt &&& 0x100) = (tt &&& 0x200) &&& (~~~tt &&& 0x100) ↔
      rwMasked tt = true ∨ rw = false := by
  have hnone : (tt &&& 0x200) &&& (~~~tt &&& 0x100) = 0 := by
    have hbits : (0x200 : UInt32) &&& 0x100 = 0 := rfl
    rw [UInt32.and_comm (~~~tt), ← UInt32.and_assoc, UInt32.and_assoc tt, hbits, UInt32.and_zero,
      UInt32.zero_and]
  rw [hnone]
  cases rw with
  | false => simp
  | true =>
    rw [if_pos rfl, UInt32.and_comm, UInt32.and_assoc, UInt32.and_self,
      and_bit_eq_zero _ 8 rfl, testBit_not _ (by decide)]
    simp [rwMasked]

theorem pmmuMatchTt_iff (logical fc tt : UInt32) (rw : Bool) :
    pmmuMatchTt logical fc tt rw = true ↔
      Selects tt logical fc ∧ (rwMasked tt = true ∨ rw = false) := by
  unfold pmmuMatchTt
  by_cases henabled : tt &&& 0x00008000 = 0
  · rw [if_pos henabled]
    rw [and_bit_eq_zero _ 15 rfl] at henabled
    refine iff_of_false Bool.false_ne_true fun h => ?_
    rw [h.1.enabled] at henabled
    cases henabled
  · rw [if_neg henabled]
    rw [and_bit_eq_zero _ 15 rfl, Bool.not_eq_false] at henabled
    rw [Bool.and_eq_true, Bool.and_eq_true, beq_iff_eq, beq_iff_eq, beq_iff_eq, addressMask_iff,
      fcMask_iff, rwMask_iff]
    constructor
    · rintro ⟨⟨ha, hf⟩, hr⟩
      exact ⟨⟨henabled, ha, hf⟩, hr⟩
    · rintro ⟨h, hr⟩
      exact ⟨⟨h.address, h.functionCode⟩, hr⟩

/-! ## Walks are never transparent -/

section
variable {r : Registers} {error : UInt32 → Bool} {fc : UInt32} {rw sideEffects : Bool}

theorem fetch_result (w : Walk) (indirect : Bool) (address : UInt32) (isLong : Bool) :
    (w.fetch error indirect address isLong).1.result = w.result := by
  unfold Walk.fetch
  simp only [readDescriptor_eq]
  split_ifs <;> rfl

theorem pmmuUpdateDescriptor_result (w : Walk) (address type first : UInt32) :
    (pmmuUpdateDescriptor error w address type first rw).result = w.result := by
  unfold pmmuUpdateDescriptor
  split_ifs <;> rfl

theorem useDescriptor_transparent (d : Descriptor) (bits : UInt32) (w : Walk) :
    (useDescriptor error fc rw sideEffects d bits w).result.transparent = w.result.transparent := by
  cases sideEffects with
  | false => rfl
  | true => simp only [useDescriptor, if_true, pmmuUpdateDescriptor_result]

theorem walkStep_transparent (w : Walk) :
    (walkStep r error fc rw sideEffects w).result.transparent = w.result.transparent := by
  by_cases h0 : w.type = dfDtInvalid
  · rw [walkStep_invalid h0]
  by_cases h1 : w.type = dfDtPage
  · rw [walkStep_page h1]
  have hresult : (fetchStep r error fc w).1.result = w.result := fetch_result _ _ _ _
  cases hd : (fetchStep r error fc w).2 with
  | none =>
    rw [walkStep_none h0 h1 rfl hd]
    simp only [Walk.busError, hresult]
  | some d =>
    rw [walkStep_some h0 h1 rfl hd, useDescriptor_transparent, hresult]

theorem walkLoop_transparent (limit fuel : Nat) (w : Walk) :
    (walkLoop r error fc rw sideEffects limit fuel w).result.transparent
      = w.result.transparent := by
  induction fuel generalizing w with
  | zero => rfl
  | succ fuel ih =>
    rw [walkLoop_succ]
    split_ifs
    · exact walkStep_transparent w
    · rw [ih, walkStep_transparent]

end

theorem pmmuWalkTables_transparent (s : M68kMmu) (logical fc : UInt32) (rw : Bool) (limit : Nat)
    (sideEffects : Bool) (result : TranslationResult) :
    (pmmuWalkTables s logical fc rw limit sideEffects result).2.transparent
      = result.transparent := by
  unfold pmmuWalkTables Walk.finish
  exact walkLoop_transparent _ _ _

theorem pmmuAtcLookup_transparent (s : M68kMmu) (logical fc : UInt32) (rw ptest : Bool)
    (result : TranslationResult) :
    (pmmuAtcLookup s logical fc rw ptest result).2.1.transparent = result.transparent := by
  unfold pmmuAtcLookup
  rcases atcScan s.regs logical fc rw ptest s.atc with ⟨atc, _ | entry⟩
  · cases ptest <;> rfl
  · rfl

/-! ## Translations -/

section
variable (s : M68kMmu) (logical fc : UInt32) (rw : Bool) (size : Nat) (intent : PmmuIntent)
  (limit : Nat)

/-- The access passes untranslated: the cache and the tables are left alone. -/
structure Bypasses : Prop where
  transparent : (pmmuTranslate s logical fc rw size intent limit).2.transparent = true
  physicalAddress : (pmmuTranslate s logical fc rw size intent limit).2.physicalAddress = logical
  fault : (pmmuTranslate s logical fc rw size intent limit).2.fault = false
  cache : (pmmuTranslate s logical fc rw size intent limit).1.atc = s.atc ∧
    (pmmuTranslate s logical fc rw size intent limit).1.replacement = s.replacement ∧
    (pmmuTranslate s logical fc rw size intent limit).1.atcHits = s.atcHits ∧
    (pmmuTranslate s logical fc rw size intent limit).1.atcMisses = s.atcMisses
  tables : (pmmuTranslate s logical fc rw size intent limit).1.memory = s.memory

theorem pmmuTranslate_transparent (hk : s.regs.kind ≠ .m68040) :
    (pmmuTranslate s logical fc rw size intent limit).2.transparent
      = transparent s.regs logical fc rw := by
  unfold pmmuTranslate
  rw [if_neg hk]
  cases ht : transparent s.regs logical fc rw with
  | true => simp only [ht, if_true]
  | false =>
    simp only [ht, if_neg Bool.false_ne_true]
    by_cases hptest : intent = .ptest ∧ limit = 0
    · simp only [if_pos hptest, pmmuAtcLookup_transparent]
    · simp only [if_neg hptest]
      by_cases hlookup : intent = .normal ∨ intent = .probe
      · simp only [if_pos hlookup]
        split_ifs <;> simp only [pmmuWalkTables_transparent, pmmuAtcLookup_transparent]
      · simp only [if_neg hlookup, if_neg Bool.false_ne_true, pmmuWalkTables_transparent]

theorem bypasses_iff (hk : s.regs.kind ≠ .m68040) :
    Bypasses s logical fc rw size intent limit ↔ transparent s.regs logical fc rw = true := by
  constructor
  · intro h
    rw [← pmmuTranslate_transparent s logical fc rw size intent limit hk]
    exact h.transparent
  · intro ht
    have heq : pmmuTranslate s logical fc rw size intent limit =
        ({ s with lastLogicalAddr := logical, tmpSr := 0 },
          { physicalAddress := logical
            status := flag (pmmuMatchTt logical fc s.regs.tt0 rw ||
              pmmuMatchTt logical fc s.regs.tt1 rw) srTransparent
            transparent := true }) := by
      simp only [pmmuTranslate, if_neg hk, ht, if_true]
    constructor <;> simp [heq]

/-- The register is for reads only: its mask bit is clear and its R/W bit is set. -/
def ReadsOnly (tt : UInt32) : Prop :=
  Selects tt logical fc ∧ rwMasked tt = false ∧ rwRead tt = true

/-- The register takes both directions, or writes only and this is one. -/
def TakesDirection (tt : UInt32) : Prop :=
  Selects tt logical fc ∧ (rwMasked tt = true ∨ rw = false ∧ rwRead tt = false)

/-- The code and the register disagree where the register is for reads only. -/
theorem covers_or_readsOnly (tt : UInt32) :
    (TakesDirection logical fc rw tt → pmmuMatchTt logical fc tt rw = true ∧
      Covers tt logical fc rw) ∧
    (¬ TakesDirection logical fc rw tt → ReadsOnly logical fc tt →
      (pmmuMatchTt logical fc tt rw = true ↔ rw = false) ∧
      (Covers tt logical fc rw ↔ rw = true)) ∧
    (¬ TakesDirection logical fc rw tt → ¬ ReadsOnly logical fc tt →
      ¬ pmmuMatchTt logical fc tt rw = true ∧ ¬ Covers tt logical fc rw) := by
  rw [pmmuMatchTt_iff]
  unfold TakesDirection ReadsOnly Covers
  by_cases hs : Selects tt logical fc
  · cases rwMasked tt <;> cases rwRead tt <;> cases rw <;> simp [hs]
  · simp [hs]

theorem bypasses_iff_covers (hk : s.regs.kind ≠ .m68040) (hfc : fc ≠ 7) :
    (Bypasses s logical fc rw size intent limit ↔
      Covers s.regs.tt0 logical fc rw ∨ Covers s.regs.tt1 logical fc rw) ↔
    (TakesDirection logical fc rw s.regs.tt0 ∨ TakesDirection logical fc rw s.regs.tt1 ∨
      ¬ ReadsOnly logical fc s.regs.tt0 ∧ ¬ ReadsOnly logical fc s.regs.tt1) := by
  rw [bypasses_iff _ _ _ _ _ _ _ hk, transparent, Bool.or_eq_true, Bool.or_eq_true,
    beq_eq_false_iff_ne.2 hfc]
  obtain ⟨h0, hr0, hn0⟩ := covers_or_readsOnly logical fc rw s.regs.tt0
  obtain ⟨h1, hr1, hn1⟩ := covers_or_readsOnly logical fc rw s.regs.tt1
  by_cases ht0 : TakesDirection logical fc rw s.regs.tt0
  · obtain ⟨hmatch, hcovers⟩ := h0 ht0
    exact iff_of_true (iff_of_true (.inl (.inl hmatch)) (.inl hcovers)) (.inl ht0)
  by_cases ht1 : TakesDirection logical fc rw s.regs.tt1
  · obtain ⟨hmatch, hcovers⟩ := h1 ht1
    exact iff_of_true (iff_of_true (.inl (.inr hmatch)) (.inr hcovers)) (.inr (.inl ht1))
  specialize hr0 ht0
  specialize hr1 ht1
  specialize hn0 ht0
  specialize hn1 ht1
  -- a register for reads only is taken for writes only
  by_cases hread0 : ReadsOnly logical fc s.regs.tt0 <;>
    by_cases hread1 : ReadsOnly logical fc s.regs.tt1
  · rw [(hr0 hread0).1, (hr0 hread0).2, (hr1 hread1).1, (hr1 hread1).2]
    cases rw <;> simp [ht0, ht1, hread0]
  · rw [(hr0 hread0).1, (hr0 hread0).2]
    cases rw <;> simp [ht0, ht1, hread0, hn1 hread1]
  · rw [(hr1 hread1).1, (hr1 hread1).2]
    cases rw <;> simp [ht0, ht1, hread1, hn0 hread0]
  · simp [hn0 hread0, hn1 hread1, hread0, hread1]

end

/-- TT0 for reads of supervisor data from the top byte 0x50, as the tests of the repository load
    it. -/
def supervisorReads : M68kMmu := { regs := { tt0 := 0x50008250 } }

theorem bypasses_iff_covers_reads :
    (Bypasses supervisorReads 0x50f04000 5 true 4 .normal 7 ↔
      Covers 0x50008250 0x50f04000 5 true ∨ Covers 0 0x50f04000 5 true) ↔
    (TakesDirection 0x50f04000 5 true 0x50008250 ∨ TakesDirection 0x50f04000 5 true 0 ∨
      ¬ ReadsOnly 0x50f04000 5 0x50008250 ∧ ¬ ReadsOnly 0x50f04000 5 0) :=
  bypasses_iff_covers supervisorReads 0x50f04000 5 true 4 .normal 7 (by decide) (by decide)

/-- The read that TT0 is for goes through the tables. -/
theorem covered_read_translated :
    ¬ ∀ (s : M68kMmu) (logical fc : UInt32) (rw : Bool) (size : Nat) (intent : PmmuIntent)
        (limit : Nat), s.regs.kind ≠ .m68040 → fc ≠ 7 →
      (Bypasses s logical fc rw size intent limit ↔
        Covers s.regs.tt0 logical fc rw ∨ Covers s.regs.tt1 logical fc rw) := by
  intro h
  have hcovers : Covers supervisorReads.regs.tt0 0x50f04000 5 true :=
    ⟨⟨by decide, by decide, by decide⟩, by decide⟩
  have hbypasses := (h supervisorReads 0x50f04000 5 true 4 .normal 7 (by decide) (by decide)).2
    (.inl hcovers)
  have htransparent := (bypasses_iff _ _ _ _ _ _ _ (by decide)).1 hbypasses
  exact absurd htransparent (by decide)

end CuteMac.Cpu

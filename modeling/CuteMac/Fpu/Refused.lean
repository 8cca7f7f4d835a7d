/-
  What a refused instruction does besides the exception.

  * `sourceKnown`, `dummySource`: the operands of an operation, and what it goes on with where one
    is refused;
  * `operation_refusedOnly_iff`, …: one lemma for each kind of instruction;
  * `Quiet`: when the exception is all that a refused instruction does.
-/
import CuteMac.Fpu.LineException

namespace CuteMac.Fpu

open ByteMemory Core M68kiCpu

/-! ## The source of an operation -/

/-- The operands that the source of each format is read from. -/
def sourceKnown (src : Nat) (ea : UInt16) : Prop :=
  let immediate := eaMode ea = 7 ∧ eaReg ea = 4
  match src with
  | 0 | 1 => eaMode ea = 0 ∨ immediate ∨ eaKnown [2, 3, 4, 5, 6] [0, 1, 2] ea
  | 2 => eaMode ea = 5 ∨ immediate ∨ eaKnown [2, 3, 4, 6] [1, 2, 3] ea
  | 3 => eaKnown [2, 3, 4] [3] ea
  | 5 => immediate ∨ eaKnown [2, 3, 4, 5, 6] [1, 2] ea
  | _ => eaMode ea = 0 ∨ immediate ∨ eaKnown [2, 3, 4, 5, 6] [0, 1] ea

/-- What an operation goes on with after its source has been refused: the zero of the format,
    and the exceptions of its conversion. -/
def dummySource (arith : SoftFloat) (src : Nat) : Floatx80 × UInt8 :=
  match src with
  | 1 => arith.float32ToFloatx80 0
  | 2 | 3 => (⟨0, 0⟩, 0)
  | 5 => arith.float64ToFloatx80 0
  | _ => (arith.int32ToFloatx80 0, 0)

section
variable {s t : M68kiCpu} {ea : UInt16}

theorem Same.raise (h : Same s t) (flags : UInt8) : Same s (t.raise flags) :=
  ⟨h.d, h.a, h.usp, h.isp, h.msp, h.ppc, h.sr, h.vbr, h.fp, h.fpcr, h.fpsr, h.floatRoundingMode,
    h.memory⟩

theorem Accepted.raise (h : Accepted s ea t) (flags : UInt8) : Accepted s ea (t.raise flags) := by
  refine ⟨h.reports, fun hne => (h.same hne).raise flags, fun hmoved => ?_⟩
  obtain ⟨x, hx, hsame⟩ := h.moved hmoved
  exact ⟨x, hx, hsame.raise flags⟩

theorem raise_zero (s : M68kiCpu) : s.raise 0 = s := by
  unfold M68kiCpu.raise
  rw [UInt8.or_zero]

/-- The displacement of an operand that is refused is not read. -/
theorem diModeEa_cases (s : M68kiCpu) (ea : UInt16) :
    (eaMode ea = 5 ∧ Advanced s (s.diModeEa ea).2) ∨ eaMode ea ≠ 5 ∧ s.diModeEa ea = (0, s) := by
  unfold diModeEa
  by_cases h5 : eaMode ea = 5
  · rw [if_pos h5]
    exact Or.inl ⟨h5, _, rfl⟩
  · rw [if_neg h5]
    exact Or.inr ⟨h5, rfl⟩

/-- A source that is made of what has been read. -/
def Source (known : Prop) (s : M68kiCpu) (ea : UInt16) (dummy : Floatx80 × UInt8)
    (r : Floatx80 × M68kiCpu) : Prop :=
  known ∧ Accepted s ea r.2 ∨ ¬ known ∧ r = (dummy.1, s.fpuReport.raise dummy.2)

theorem Reads.source {α : Type} {known : Prop} {zero : α} {r : α × M68kiCpu}
    (h : Reads known s ea zero r) (f : α → Floatx80) :
    Source known s ea (f zero, 0) (f r.1, r.2) := by
  rcases h with ⟨hk, hacc⟩ | ⟨hk, hr⟩
  · exact Or.inl ⟨hk, hacc⟩
  · refine Or.inr ⟨hk, ?_⟩
    rw [hr, raise_zero]

theorem Reads.source_raise {α : Type} {known : Prop} {zero : α} {r : α × M68kiCpu}
    (h : Reads known s ea zero r) (f : α → Floatx80 × UInt8) :
    Source known s ea (f zero) ((f r.1).1, r.2.raise (f r.1).2) := by
  rcases h with ⟨hk, hacc⟩ | ⟨hk, hr⟩
  · exact Or.inl ⟨hk, hacc.raise _⟩
  · refine Or.inr ⟨hk, ?_⟩
    rw [hr]

theorem source_extended (s : M68kiCpu) (ea : UInt16) :
    Source (sourceKnown 2 ea) s ea (⟨0, 0⟩, 0)
      ((s.diModeEa ea).2.readEaFpe ea (s.diModeEa ea).1) := by
  rcases diModeEa_cases s ea with ⟨h5, hadv⟩ | ⟨h5, hdi⟩
  · refine Or.inl ⟨Or.inl h5, ?_⟩
    have hread : (s.diModeEa ea).2.readEaFpe ea (s.diModeEa ea).1
        = ((s.diModeEa ea).2.loadExtendedFloat80 (s.diModeEa ea).1, (s.diModeEa ea).2) := if_pos h5
    rw [hread]
    exact hadv.accepted (by omega)
  · rw [hdi]
    exact (reads_fpe s ea 0).source fun x => x

theorem source_readSource (arith : SoftFloat) (s : M68kiCpu) (ea : UInt16) : ∀ src,
    Source (sourceKnown src ea) s ea (dummySource arith src) (s.readSource arith src ea)
  | 0 => (reads_32 s ea).source arith.int32ToFloatx80
  | 1 => (reads_32 s ea).source_raise arith.float32ToFloatx80
  | 2 => source_extended s ea
  | 3 => (reads_pack s ea).source fun pack => (pack.map arith.packToFloatx80).getD ⟨0, 0⟩
  | 4 => (reads_16 s ea).source fun d => arith.int32ToFloatx80 (signed16 d)
  | 5 => (reads_64 s ea).source_raise arith.float64ToFloatx80
  | _ + 6 => (reads_8 s ea).source fun d => arith.int32ToFloatx80 (signed8 d)

end

/-! ## Operations -/

/-- The number that `roundResult` makes of the result. -/
def rounded (arith : SoftFloat) (mode : UInt32) (round : Nat) (x : Floatx80) : Floatx80 :=
  match round with
  | 1 => (arith.roundToSingle mode x).1
  | 2 => (arith.roundToDouble mode x).1
  | _ => x

/-- An unknown operation is quiet if its operand has moved no address register; an operation with
    a refused operand is quiet if it leaves the registers with the dummy operand as they are. Both
    only if the rounding that follows leaves the register. -/
def QuietOperation (arith : SoftFloat) (s : M68kiCpu) (w2 : UInt16) : Prop :=
  let rm := (w2 >>> 14) &&& 1
  let src := ((w2 >>> 10) &&& 7).toNat
  let dst := Fin.ofNat 8 ((w2 >>> 7) &&& 7).toNat
  let opmode := w2 &&& 0x7f
  let round := rounded arith s.floatRoundingMode (s.rounding opmode)
  if rm = 0 then round (s.fp dst) = s.fp dst
  else
    (sourceKnown src s.ea → eaMode s.ea ≠ 3 ∧ eaMode s.ea ≠ 4 ∧ round (s.fp dst) = s.fp dst) ∧
      (¬ sourceKnown src s.ea →
        ∃ o, operate arith s.floatRoundingMode (opmodeRounding opmode).2.toNat dst
            (dummySource arith src).1 (s.raise (dummySource arith src).2).outcome = some o ∧
          o.fpsr = s.fpsr ∧ Function.update o.fp dst (round (o.fp dst)) = s.fp)

section
variable {s t u : M68kiCpu} {ea : UInt16}

theorem refusedOnly_iff_of_reported (h : Reported s t) :
    RefusedOnly s t ↔ t.d = s.d ∧ t.fp = s.fp ∧ t.fpcr = s.fpcr ∧ t.fpsr = s.fpsr :=
  ⟨fun hr => ⟨hr.d, hr.fp, hr.fpcr, hr.fpsr⟩, fun ⟨hd, hfp, hcr, hsr⟩ => ⟨h, hd, hfp, hcr, hsr⟩⟩

theorem Reported.setFp (h : Reported s t) (dst : Fin 8) (x : Floatx80) : Reported s (t.setFp dst x) :=
  ⟨h.reports, h.pc, h.a, h.usp, h.isp, h.msp, h.sr, h.memory⟩

theorem Reported.raise (h : Reported s t) (flags : UInt8) : Reported s (t.raise flags) :=
  ⟨h.reports, h.pc, h.a, h.usp, h.isp, h.msp, h.sr, h.memory⟩

theorem Reported.setOutcome (h : Reported s t) (o : Outcome) : Reported s (t.setOutcome o) :=
  ⟨h.reports, h.pc, h.a, h.usp, h.isp, h.msp, h.sr, h.memory⟩

theorem roundResult_eq (arith : SoftFloat) (t : M68kiCpu) (dst : Fin 8) : ∀ round,
    ∃ flags, t.roundResult arith round dst
      = (t.setFp dst (rounded arith t.floatRoundingMode round (t.fp dst))).raise flags
  | 1 => ⟨_, rfl⟩
  | 2 => ⟨_, rfl⟩
  | 0 | _ + 3 => by
    refine ⟨0, ?_⟩
    show t = (t.setFp dst (t.fp dst)).raise 0
    unfold M68kiCpu.setFp
    rw [raise_zero, Function.update_eq_self]

theorem reports_roundResult (arith : SoftFloat) (t : M68kiCpu) (round : Nat) (dst : Fin 8) :
    (t.roundResult arith round dst).reports = t.reports := by
  obtain ⟨flags, h⟩ := roundResult_eq arith t dst round
  rw [h]
  rfl

/-- The exception tells a moved address register. -/
theorem setA_of_exception {reg : Fin 8} {x : UInt32}
    (ha : (s.setA reg x).exception1111.a = s.exception1111.a)
    (husp : (s.setA reg x).exception1111.usp = s.exception1111.usp) : x = s.a reg := by
  rw [exception1111_eq, exception1111_eq] at ha husp
  dsimp only at ha husp
  have hself : (s.setA reg x).a reg = x := by
    show Function.update s.a reg x reg = x
    rw [Function.update_self]
  by_cases h7 : reg = 7
  · subst h7
    have hsup : (s.setA 7 x).supervisor = s.supervisor := rfl
    rw [hsup, hself] at husp
    cases hs : s.supervisor with
    | false =>
      rw [hs] at husp
      exact husp
    | true =>
      have hstack := congrFun ha 7
      rw [Function.update_self, Function.update_self] at hstack
      unfold supervisorStack at hstack
      rw [hsup, hs, if_pos rfl, if_pos rfl, hself] at hstack
      exact sub_left_inj.1 hstack
  · have hreg := congrFun ha reg
    rw [Function.update_of_ne h7, Function.update_of_ne h7, hself] at hreg
    exact hreg

/-- What is left of a found operand is what the exception keeps. -/
theorem Accepted.kept (h : Accepted s ea t) :
    t.d = s.d ∧ t.fp = s.fp ∧ t.fpcr = s.fpcr ∧ t.fpsr = s.fpsr ∧
      t.floatRoundingMode = s.floatRoundingMode := by
  by_cases hmoved : eaMode ea = 3 ∨ eaMode ea = 4
  · obtain ⟨x, -, hsame⟩ := h.moved hmoved
    exact ⟨hsame.d, hsame.fp, hsame.fpcr, hsame.fpsr, hsame.floatRoundingMode⟩
  · have hsame := h.same (not_or.1 hmoved)
    exact ⟨hsame.d, hsame.fp, hsame.fpcr, hsame.fpsr, hsame.floatRoundingMode⟩

/-- The refusal after an operand has been found. -/
theorem refusedOnly_accepted_iff {r : M68kiCpu} (h : Accepted s ea t) (hreport : t.fpuReport = r)
    (hreported : ∀ v, Reported v r → Reported v u) (hd : u.d = t.d) (hcr : u.fpcr = t.fpcr) (hsr : u.fpsr = t.fpsr) :
    RefusedOnly s u ↔ eaMode ea ≠ 3 ∧ eaMode ea ≠ 4 ∧ u.fp = s.fp := by
  obtain ⟨hd', -, hcr', hsr', -⟩ := h.kept
  by_cases hmoved : eaMode ea = 3 ∨ eaMode ea = 4
  · refine iff_of_false (fun hr => ?_) (by omega)
    obtain ⟨x, hx, hsame⟩ := h.moved hmoved
    have hrep := hreported _ (hreport ▸ hsame.reported_fpuReport h.reports)
    refine hx (setA_of_exception ?_ ?_)
    · rw [← hrep.a, hr.a]
    · rw [← hrep.usp, hr.usp]
  · have hrep := hreported _ (hreport ▸ (h.same (not_or.1 hmoved)).reported_fpuReport h.reports)
    rw [refusedOnly_iff_of_reported hrep, hd, hcr, hsr]
    constructor
    · rintro ⟨-, hfp, -, -⟩
      exact ⟨fun h3 => hmoved (Or.inl h3), fun h4 => hmoved (Or.inr h4), hfp⟩
    · rintro ⟨-, -, hfp⟩
      exact ⟨hd', hfp, hcr', hsr'⟩

/-- An unknown operation is refused after its operand has been found. -/
theorem unknown_refusedOnly_iff (arith : SoftFloat) (h : Accepted s ea t) (opmode : UInt16)
    (dst : Fin 8) :
    RefusedOnly s (t.fpuReport.roundResult arith (t.fpuReport.rounding opmode) dst) ↔
      eaMode ea ≠ 3 ∧ eaMode ea ≠ 4 ∧
        rounded arith s.floatRoundingMode (s.rounding opmode) (s.fp dst) = s.fp dst := by
  obtain ⟨hd, hfp, hcr, hsr, hmode⟩ := h.kept
  obtain ⟨-, hd', hfp', hcr', hsr', hmode', -⟩ := fpuReport_kept t
  obtain ⟨r, hreport⟩ : ∃ r, t.fpuReport = r := ⟨_, rfl⟩
  rw [hreport] at hd' hfp' hcr' hsr' hmode' ⊢
  have hround : r.rounding opmode = s.rounding opmode := by
    unfold rounding
    rw [hcr', hcr]
  obtain ⟨flags, hresult⟩ := roundResult_eq arith r dst (r.rounding opmode)
  rw [hresult, refusedOnly_accepted_iff h hreport (fun v hv => (hv.setFp dst _).raise flags) hd' hcr'
    hsr', hround, hfp', hmode', hfp, hmode]
  refine and_congr_right fun _ => and_congr_right fun _ => ?_
  show Function.update r.fp dst _ = s.fp ↔ _
  rw [hfp', hfp, Function.update_eq_self_iff]

/-- An operation goes on with the dummy operand. -/
theorem dummy_refusedOnly_iff (arith : SoftFloat) (s : M68kiCpu) (opmode : UInt16) (dst : Fin 8)
    (flags : UInt8) (o : Outcome) :
    RefusedOnly s (((s.fpuReport.raise flags).setOutcome o).roundResult arith
        (((s.fpuReport.raise flags).setOutcome o).rounding opmode) dst) ↔
      o.fpsr = s.fpsr ∧ Function.update o.fp dst
        (rounded arith s.floatRoundingMode (s.rounding opmode) (o.fp dst)) = s.fp := by
  have hreported := (Same.refl s).reported_fpuReport rfl
  obtain ⟨-, hd, -, hcr, -, hmode, -⟩ := fpuReport_kept s
  obtain ⟨r, hreport⟩ : ∃ r, s.fpuReport = r := ⟨_, rfl⟩
  rw [hreport] at hreported hd hcr hmode ⊢
  have hround : ((r.raise flags).setOutcome o).rounding opmode = s.rounding opmode := by
    unfold rounding
    show (if _ then ((r.fpcr >>> 6) &&& 3).toNat else _) = _
    rw [hcr]
  obtain ⟨flags', hresult⟩ := roundResult_eq arith ((r.raise flags).setOutcome o) dst
    (((r.raise flags).setOutcome o).rounding opmode)
  rw [hresult, refusedOnly_iff_of_reported (((hreported.raise flags).setOutcome o).setFp dst _ |>.raise flags'),
    hround]
  show r.d = s.d ∧ Function.update o.fp dst
    (rounded arith r.floatRoundingMode (s.rounding opmode) (o.fp dst)) = s.fp ∧ r.fpcr = s.fpcr ∧
      o.fpsr = s.fpsr ↔ _
  rw [hmode]
  exact ⟨fun ⟨_, hfp, _, hsr⟩ => ⟨hsr, hfp⟩, fun ⟨hsr, hfp⟩ => ⟨hd, hfp, hcr, hsr⟩⟩

theorem outcome_raise (s : M68kiCpu) (flags : UInt8) :
    (s.raise flags).outcome = ⟨s.fp, s.fpsr, s.floatExceptionFlags ||| flags⟩ := rfl

/-- A refused operation. -/
theorem operation_refusedOnly_iff (arith : SoftFloat) (s : M68kiCpu) (w2 : UInt16)
    (hreports : (s.fpgenRmReg arith w2).reports ≠ s.reports) :
    RefusedOnly s (s.fpgenRmReg arith w2) ↔ QuietOperation arith s w2 := by
  unfold fpgenRmReg at hreports ⊢
  unfold QuietOperation
  dsimp only at hreports ⊢
  by_cases hrom : (w2 >>> 14) &&& 1 ≠ 0 ∧ ((w2 >>> 10) &&& 7).toNat = 7
  · rw [if_pos hrom] at hreports
    exact absurd rfl hreports
  rw [if_neg hrom] at hreports ⊢
  by_cases hrm : (w2 >>> 14) &&& 1 = 0
  · rw [if_neg (not_not_intro hrm)] at hreports ⊢
    rw [if_pos hrm]
    dsimp only at hreports ⊢
    split at hreports
    · exact absurd (reports_roundResult ..) hreports
    · have hacc : Accepted s 0 s := Advanced.accepted ⟨_, rfl⟩ (by decide)
      rw [unknown_refusedOnly_iff arith hacc]
      exact ⟨fun h => h.2.2, fun h => ⟨by decide, by decide, h⟩⟩
  · rw [if_pos hrm] at hreports ⊢
    rw [if_neg hrm]
    rcases source_readSource arith s s.ea ((w2 >>> 10) &&& 7).toNat with ⟨hk, hacc⟩ | ⟨hk, hr⟩
    · split at hreports
      · exact (hreports ((reports_roundResult ..).trans hacc.reports)).elim
      · rw [unknown_refusedOnly_iff arith hacc]
        exact ⟨fun h => ⟨fun _ => h, fun hn => absurd hk hn⟩, fun h => h.1 hk⟩
    · obtain ⟨hone, -, hfp, -, hsr, hmode, hflags⟩ := fpuReport_kept s
      rw [hr]
      dsimp only
      rw [outcome_raise, hfp, hsr, hflags, ← outcome_raise]
      have hround : (s.fpuReport.raise (dummySource arith ((w2 >>> 10) &&& 7).toNat).2).floatRoundingMode
          = s.floatRoundingMode := hmode
      rw [hround]
      cases hop : operate arith s.floatRoundingMode (opmodeRounding (w2 &&& 0x7f)).2.toNat
          (Fin.ofNat 8 ((w2 >>> 7) &&& 7).toNat) (dummySource arith ((w2 >>> 10) &&& 7).toNat).1
          (s.raise (dummySource arith ((w2 >>> 10) &&& 7).toNat).2).outcome with
      | none =>
        refine iff_of_false (fun h => ?_) fun h => ?_
        · have htwo := h.reports
          rw [reports_roundResult, (fpuReport_kept _).1] at htwo
          have hraise : (s.fpuReport.raise (dummySource arith ((w2 >>> 10) &&& 7).toNat).2).reports
              = s.reports + 1 := hone
          omega
        · obtain ⟨o, ho, -⟩ := h.2 hk
          cases ho
      | some o =>
        dsimp only
        rw [dummy_refusedOnly_iff]
        exact ⟨fun h => ⟨fun hn => absurd hn hk, fun _ => ⟨o, rfl, h⟩⟩, fun h => by
          obtain ⟨o', ho, hquiet⟩ := h.2 hk
          cases ho
          exact hquiet⟩

end

/-! ## Transfers -/

/-- A refused read gives the register zero, which FPIAR alone may change to. -/
def KeepsZero (s : M68kiCpu) : ControlRegister → Prop
  | .fpcr => s.fpcr = 0
  | .fpsr => s.fpsr = 0
  | .fpiar => True

/-- One control register is moved. -/
def QuietControls (s : M68kiCpu) (w2 : UInt16) : Prop :=
  ∃ r, selectedRegisters ((w2 >>> 10) &&& 7) = [r] ∧ ((w2 >>> 13) &&& 1 ≠ 0 ∨ KeepsZero s r)

/-- The mode of the list is unknown, or one register is listed; a read gives it zero. -/
def QuietRegisters (s : M68kiCpu) (w2 : UInt16) : Prop :=
  let mode := (w2 >>> 11) &&& 3
  let list := w2 &&& 0xff
  if (w2 >>> 13) &&& 1 ≠ 0 then
    (mode = 2 ∨ mode = 0 → ∃ r, listed list = [r] ∧ True)
  else mode = 2 → ∃ r, listedReversed list = [r] ∧ s.fp r = ⟨0, 0⟩

section
variable {s t u : M68kiCpu} {ea : UInt16}

/-- A store that is refused has done nothing before. -/
theorem Writes.refusedOnly {known : Prop} (h : Writes known t u) (hsame : Same s t)
    (ht : t.reports = s.reports) (hreports : u.reports ≠ s.reports) : RefusedOnly s u := by
  rcases h with ⟨-, hu⟩ | ⟨-, rfl⟩
  · exact absurd (hu.trans ht) hreports
  · exact RefusedOnly.of_same hsame ht

theorem store_refusedOnly (arith : SoftFloat) (s : M68kiCpu) (w2 : UInt16)
    (hreports : (s.fmoveRegMem arith w2).reports ≠ s.reports) :
    RefusedOnly s (s.fmoveRegMem arith w2) := by
  have hself := Same.refl s
  unfold fmoveRegMem at hreports ⊢
  dsimp only at hreports ⊢
  split at hreports
  · exact (writes_32 _ s.ea _).refusedOnly (hself.raise _) rfl hreports
  · exact (writes_32 _ s.ea _).refusedOnly (hself.raise _) rfl hreports
  · rcases diModeEa_cases s s.ea with ⟨-, hadv⟩ | ⟨-, hdi⟩
    · obtain ⟨pc, hpc⟩ := hadv
      exact (writes_fpe _ s.ea _ _).refusedOnly (Advanced.same ⟨pc, hpc⟩) (by rw [hpc]) hreports
    · rw [hdi] at hreports ⊢
      exact (writes_fpe _ s.ea _ _).refusedOnly hself rfl hreports
  · exact (writes_pack _ s.ea _).refusedOnly hself rfl hreports
  · exact (writes_16 _ s.ea _).refusedOnly (hself.raise _) rfl hreports
  · exact (writes_64 _ s.ea _).refusedOnly (hself.raise _) rfl hreports
  · exact (writes_8 _ s.ea _).refusedOnly (hself.raise _) rfl hreports
  · exact (writes_pack _ s.ea _).refusedOnly hself rfl hreports

theorem Writes.reports {known : Prop} (h : Writes known s t) :
    (known → t.reports = s.reports) ∧ (¬ known → t = s.fpuReport) := by
  rcases h with ⟨hk, ht⟩ | ⟨hk, ht⟩
  · exact ⟨fun _ => ht, fun hn => absurd hk hn⟩
  · exact ⟨fun h => absurd h hk, fun _ => ht⟩

theorem Reads.reports {α : Type} {known : Prop} {zero : α} {r : α × M68kiCpu}
    (h : Reads known s ea zero r) :
    (known → r.2.reports = s.reports) ∧ (¬ known → r = (zero, s.fpuReport)) := by
  rcases h with ⟨hk, hr⟩ | ⟨hk, hr⟩
  · exact ⟨fun _ => hr.reports, fun hn => absurd hk hn⟩
  · exact ⟨fun h => absurd h hk, fun _ => hr⟩

/-! As many reports as registers, where each operand makes `n`. -/

theorem reports_writeControls {n : Nat}
    (h : ∀ (s : M68kiCpu) (value : UInt32), (s.writeEa32 ea value).reports = s.reports + n)
    (rs : List ControlRegister) : ∀ s : M68kiCpu,
    (s.writeControls ea rs).reports = s.reports + n * rs.length := by
  induction rs with
  | nil => exact fun _ => rfl
  | cons r rs ih =>
    intro s
    rw [writeControls, ih, h, List.length_cons, Nat.mul_succ]
    omega

theorem reports_readControls {n : Nat}
    (h : ∀ s : M68kiCpu, (s.readEa32 ea).2.reports = s.reports + n)
    (rs : List ControlRegister) : ∀ s : M68kiCpu,
    (s.readControls ea rs).reports = s.reports + n * rs.length := by
  induction rs with
  | nil => exact fun _ => rfl
  | cons r rs ih =>
    intro s
    have hset : ∀ (t : M68kiCpu) (value : UInt32), (t.setControl r value).reports = t.reports := by
      cases r <;> exact fun _ _ => rfl
    rw [readControls, ih, hset, h, List.length_cons, Nat.mul_succ]
    omega

theorem reports_storeRegisters {n : Nat}
    (h : ∀ (s : M68kiCpu) (x : Floatx80) (di : UInt32),
      (s.writeEaFpe ea x di).reports = s.reports + n)
    (rs : List (Fin 8)) : ∀ (s : M68kiCpu) (di : UInt32),
    (s.storeRegisters ea di rs).reports = s.reports + n * rs.length := by
  induction rs with
  | nil => exact fun _ _ => rfl
  | cons r rs ih =>
    intro s di
    rw [storeRegisters, ih, h, List.length_cons, Nat.mul_succ]
    omega

theorem reports_loadRegisters {n : Nat}
    (h : ∀ (s : M68kiCpu) (di : UInt32), (s.readEaFpe ea di).2.reports = s.reports + n)
    (rs : List (Fin 8)) : ∀ (s : M68kiCpu) (di : UInt32),
    (s.loadRegisters ea di rs).reports = s.reports + n * rs.length := by
  induction rs with
  | nil => exact fun _ _ => rfl
  | cons r rs ih =>
    intro s di
    have hset : ∀ (t : M68kiCpu) (x : Floatx80), (t.setFp r x).reports = t.reports := fun _ _ => rfl
    rw [loadRegisters, ih, hset, h, List.length_cons, Nat.mul_succ]
    omega

theorem reports_storeControls (rs : List ControlRegister) : ∀ (s : M68kiCpu) (a : UInt32),
    (s.storeControls a rs).reports = s.reports := by
  induction rs with
  | nil => exact fun _ _ => rfl
  | cons r rs ih => exact fun s a => ih _ _

theorem reports_loadControls (rs : List ControlRegister) : ∀ (s : M68kiCpu) (a : UInt32),
    (s.loadControls a rs).reports = s.reports := by
  induction rs with
  | nil => exact fun _ _ => rfl
  | cons r rs ih =>
    intro s a
    have hset : ∀ value : UInt32, (s.setControl r value).reports = s.reports := by
      cases r <;> exact fun _ => rfl
    rw [loadControls, ih, hset]

theorem advanced_eaControlAddress32 (s : M68kiCpu) (ea : UInt16) {p : UInt32 × M68kiCpu}
    (h : s.eaControlAddress32 ea = some p) : Advanced s p.2 := by
  unfold eaControlAddress32 at h
  split at h
  · cases h
    exact ⟨_, rfl⟩
  · cases h
    exact ⟨_, rfl⟩
  · cases h
    exact advanced_getEaIx ..
  · split at h
    · cases h
      exact ⟨_, rfl⟩
    · cases h
      exact ⟨_, rfl⟩
    · cases h
      exact ⟨_, rfl⟩
    · cases h
      exact advanced_getEaIx ..
    · cases h
  · cases h

/-- A control register that a refused read has set to zero. -/
theorem setControl_refusedOnly_iff (s : M68kiCpu) (r : ControlRegister) :
    RefusedOnly s (s.fpuReport.setControl r 0) ↔ KeepsZero s r := by
  have hreported := (Same.refl s).reported_fpuReport rfl
  obtain ⟨-, hd, hfp, hcr, hsr, -⟩ := fpuReport_kept s
  obtain ⟨t, hreport⟩ : ∃ t, s.fpuReport = t := ⟨_, rfl⟩
  rw [hreport] at hreported hd hfp hcr hsr ⊢
  have hset : Reported s (t.setControl r 0) := by
    cases r <;> exact ⟨hreported.reports, hreported.pc, hreported.a, hreported.usp, hreported.isp,
      hreported.msp, hreported.sr, hreported.memory⟩
  rw [refusedOnly_iff_of_reported hset]
  cases r with
  | fpcr => exact ⟨fun h => h.2.2.1.symm, fun h => ⟨hd, hfp, h.symm, hsr⟩⟩
  | fpsr => exact ⟨fun h => h.2.2.2.symm, fun h => ⟨hd, hfp, hcr, h.symm⟩⟩
  | fpiar => exact ⟨fun _ => trivial, fun _ => ⟨hd, hfp, hcr, hsr⟩⟩

/-- Where each register of a list is refused, one register alone can be quiet. -/
theorem refusedOnly_iff_of_count {α : Type} {rs : List α} {P : α → Prop}
    (hcount : t.reports = s.reports + 1 * rs.length) (hreports : t.reports ≠ s.reports)
    (hone : ∀ r, rs = [r] → (RefusedOnly s t ↔ P r)) :
    RefusedOnly s t ↔ ∃ r, rs = [r] ∧ P r := by
  match rs with
  | [] => exact absurd hcount hreports
  | [r] =>
    rw [hone r rfl]
    exact ⟨fun h => ⟨r, rfl, h⟩, fun ⟨_, hr, h⟩ => by cases hr; exact h⟩
  | _ :: _ :: _ =>
    refine iff_of_false (fun h => ?_) fun ⟨r, hr, _⟩ => by cases hr
    have htwo := h.reports
    rw [hcount, List.length_cons, List.length_cons] at htwo
    omega

theorem writeControls_refusedOnly_iff (s : M68kiCpu) (ea : UInt16) (rs : List ControlRegister)
    (hreports : (s.writeControls ea rs).reports ≠ s.reports) :
    RefusedOnly s (s.writeControls ea rs) ↔ ∃ r, rs = [r] ∧ True := by
  by_cases hk : eaMode ea = 0 ∨ eaMode ea = 1 ∨ eaKnown [2, 3, 4, 5, 6] [1, 2] ea
  · have hfound : ∀ (s : M68kiCpu) (value : UInt32), (s.writeEa32 ea value).reports = s.reports + 0 :=
      fun s value => (writes_32 s ea value).reports.1 hk
    have hall := reports_writeControls hfound rs s
    rw [Nat.zero_mul] at hall
    exact absurd hall hreports
  · have hrefused : ∀ (s : M68kiCpu) (value : UInt32), s.writeEa32 ea value = s.fpuReport :=
      fun s value => (writes_32 s ea value).reports.2 hk
    have hcount : ∀ (s : M68kiCpu) (value : UInt32), (s.writeEa32 ea value).reports = s.reports + 1 :=
      fun s value => by rw [hrefused, (fpuReport_kept s).1]
    refine refusedOnly_iff_of_count (reports_writeControls hcount rs s) hreports fun r hr => ?_
    have hrun : s.writeControls ea [r] = s.fpuReport := hrefused s _
    rw [hr, hrun]
    exact iff_of_true (RefusedOnly.of_same (Same.refl s) rfl) trivial

theorem readControls_refusedOnly_iff (s : M68kiCpu) (ea : UInt16) (rs : List ControlRegister)
    (hreports : (s.readControls ea rs).reports ≠ s.reports) :
    RefusedOnly s (s.readControls ea rs) ↔ ∃ r, rs = [r] ∧ KeepsZero s r := by
  by_cases hk : eaMode ea = 0 ∨ (eaMode ea = 7 ∧ eaReg ea = 4) ∨ eaKnown [2, 3, 4, 5, 6] [0, 1, 2] ea
  · have hfound : ∀ s : M68kiCpu, (s.readEa32 ea).2.reports = s.reports + 0 :=
      fun s => (reads_32 s ea).reports.1 hk
    have hall := reports_readControls hfound rs s
    rw [Nat.zero_mul] at hall
    exact absurd hall hreports
  · have hrefused : ∀ s : M68kiCpu, s.readEa32 ea = (0, s.fpuReport) :=
      fun s => (reads_32 s ea).reports.2 hk
    have hcount : ∀ s : M68kiCpu, (s.readEa32 ea).2.reports = s.reports + 1 :=
      fun s => by rw [hrefused, (fpuReport_kept s).1]
    refine refusedOnly_iff_of_count (reports_readControls hcount rs s) hreports fun r hr => ?_
    have hrun : s.readControls ea [r] = s.fpuReport.setControl r 0 := by
      rw [readControls, hrefused]
      rfl
    rw [hr, hrun]
    exact setControl_refusedOnly_iff s r

/-- A refused transfer of control registers. -/
theorem controls_refusedOnly_iff (s : M68kiCpu) (w2 : UInt16)
    (hreports : (s.fmoveFpcr w2).reports ≠ s.reports) :
    RefusedOnly s (s.fmoveFpcr w2) ↔ QuietControls s w2 := by
  unfold fmoveFpcr at hreports ⊢
  unfold QuietControls
  dsimp only at hreports ⊢
  cases haddress : (if 1 < (selectedRegisters ((w2 >>> 10) &&& 7)).length ∧ eaMode s.ea ≠ 3 ∧
      eaMode s.ea ≠ 4 then s.eaControlAddress32 s.ea else none) with
  | some place =>
    rw [haddress] at hreports
    dsimp only at hreports
    have hfound : s.eaControlAddress32 s.ea = some place := by
      split at haddress
      · exact haddress
      · cases haddress
    obtain ⟨pc, hpc⟩ := advanced_eaControlAddress32 s s.ea hfound
    refine absurd ?_ hreports
    by_cases hdir : (w2 >>> 13) &&& 1 ≠ 0
    · rw [if_pos hdir, reports_storeControls, hpc]
    · rw [if_neg hdir, reports_loadControls, hpc]
  | none =>
    rw [haddress] at hreports
    dsimp only at hreports ⊢
    by_cases hdir : (w2 >>> 13) &&& 1 ≠ 0
    · rw [if_pos hdir] at hreports ⊢
      rw [writeControls_refusedOnly_iff s s.ea _ hreports]
      exact exists_congr fun r => and_congr_right fun _ => iff_of_true trivial (Or.inl hdir)
    · rw [if_neg hdir] at hreports ⊢
      rw [readControls_refusedOnly_iff s s.ea _ hreports]
      exact exists_congr fun r => and_congr_right fun _ => (or_iff_right hdir).symm

theorem reports_diModeEa (s : M68kiCpu) (ea : UInt16) : (s.diModeEa ea).2.reports = s.reports := by
  rcases diModeEa_cases s ea with ⟨-, pc, hpc⟩ | ⟨-, hdi⟩
  · rw [hpc]
  · rw [hdi]

theorem storeRegisters_refusedOnly_iff (s : M68kiCpu) (ea : UInt16) (rs : List (Fin 8))
    (hreports : ((s.diModeEa ea).2.storeRegisters ea (s.diModeEa ea).1 rs).reports ≠ s.reports) :
    RefusedOnly s ((s.diModeEa ea).2.storeRegisters ea (s.diModeEa ea).1 rs) ↔
      ∃ r, rs = [r] ∧ True := by
  by_cases hk : eaMode ea = 5 ∨ eaKnown [2, 3, 4] [1] ea
  · have hfound : ∀ (s : M68kiCpu) (x : Floatx80) (di : UInt32),
        (s.writeEaFpe ea x di).reports = s.reports + 0 :=
      fun s x di => (writes_fpe s ea x di).reports.1 hk
    have hall := reports_storeRegisters hfound rs (s.diModeEa ea).2 (s.diModeEa ea).1
    rw [Nat.zero_mul, reports_diModeEa] at hall
    exact absurd hall hreports
  · have hrefused : ∀ (s : M68kiCpu) (x : Floatx80) (di : UInt32), s.writeEaFpe ea x di = s.fpuReport :=
      fun s x di => (writes_fpe s ea x di).reports.2 hk
    have hcount : ∀ (s : M68kiCpu) (x : Floatx80) (di : UInt32),
        (s.writeEaFpe ea x di).reports = s.reports + 1 :=
      fun s x di => by rw [hrefused, (fpuReport_kept s).1]
    have hdi : s.diModeEa ea = (0, s) := if_neg fun h5 => hk (Or.inl h5)
    rw [hdi] at hreports ⊢
    refine refusedOnly_iff_of_count (reports_storeRegisters hcount rs s 0) hreports fun r hr => ?_
    have hrun : s.storeRegisters ea 0 [r] = s.fpuReport := hrefused s _ _
    rw [hr]
    show RefusedOnly s (s.storeRegisters ea 0 [r]) ↔ True
    rw [hrun]
    exact iff_of_true (RefusedOnly.of_same (Same.refl s) rfl) trivial

/-- A register that a refused read has set to zero. -/
theorem setFp_refusedOnly_iff (s : M68kiCpu) (r : Fin 8) (x : Floatx80) :
    RefusedOnly s (s.fpuReport.setFp r x) ↔ s.fp r = x := by
  have hreported := (Same.refl s).reported_fpuReport rfl
  obtain ⟨-, hd, hfp, hcr, hsr, -⟩ := fpuReport_kept s
  obtain ⟨t, hreport⟩ : ∃ t, s.fpuReport = t := ⟨_, rfl⟩
  rw [hreport] at hreported hd hfp hcr hsr ⊢
  rw [refusedOnly_iff_of_reported (hreported.setFp r x)]
  show t.d = s.d ∧ Function.update t.fp r x = s.fp ∧ t.fpcr = s.fpcr ∧ t.fpsr = s.fpsr ↔ _
  rw [hfp, Function.update_eq_self_iff]
  exact ⟨fun h => h.2.1.symm, fun h => ⟨hd, h.symm, hcr, hsr⟩⟩

theorem loadRegisters_refusedOnly_iff (s : M68kiCpu) (ea : UInt16) (rs : List (Fin 8))
    (hreports : ((s.diModeEa ea).2.loadRegisters ea (s.diModeEa ea).1 rs).reports ≠ s.reports) :
    RefusedOnly s ((s.diModeEa ea).2.loadRegisters ea (s.diModeEa ea).1 rs) ↔
      ∃ r, rs = [r] ∧ s.fp r = ⟨0, 0⟩ := by
  by_cases hk : eaMode ea = 5 ∨ (eaMode ea = 7 ∧ eaReg ea = 4) ∨ eaKnown [2, 3, 4, 6] [1, 2, 3] ea
  · have hfound : ∀ (s : M68kiCpu) (di : UInt32), (s.readEaFpe ea di).2.reports = s.reports + 0 :=
      fun s di => (reads_fpe s ea di).reports.1 hk
    have hall := reports_loadRegisters hfound rs (s.diModeEa ea).2 (s.diModeEa ea).1
    rw [Nat.zero_mul, reports_diModeEa] at hall
    exact absurd hall hreports
  · have hrefused : ∀ (s : M68kiCpu) (di : UInt32), s.readEaFpe ea di = (⟨0, 0⟩, s.fpuReport) :=
      fun s di => (reads_fpe s ea di).reports.2 hk
    have hcount : ∀ (s : M68kiCpu) (di : UInt32), (s.readEaFpe ea di).2.reports = s.reports + 1 :=
      fun s di => by rw [hrefused, (fpuReport_kept s).1]
    have hdi : s.diModeEa ea = (0, s) := if_neg fun h5 => hk (Or.inl h5)
    rw [hdi] at hreports ⊢
    refine refusedOnly_iff_of_count (reports_loadRegisters hcount rs s 0) hreports fun r hr => ?_
    have hrun : s.loadRegisters ea 0 [r] = s.fpuReport.setFp r ⟨0, 0⟩ := by
      rw [loadRegisters, hrefused]
      rfl
    rw [hr]
    show RefusedOnly s (s.loadRegisters ea 0 [r]) ↔ _
    rw [hrun]
    exact setFp_refusedOnly_iff s r ⟨0, 0⟩

/-- A refused transfer of registers. -/
theorem registers_refusedOnly_iff (s : M68kiCpu) (w2 : UInt16)
    (hreports : (s.fmovem w2).reports ≠ s.reports) :
    RefusedOnly s (s.fmovem w2) ↔ QuietRegisters s w2 := by
  have hsimple : RefusedOnly s s.fpuReport := RefusedOnly.of_same (Same.refl s) rfl
  unfold fmovem at hreports ⊢
  unfold QuietRegisters
  dsimp only at hreports ⊢
  by_cases hdir : (w2 >>> 13) &&& 1 ≠ 0
  · rw [if_pos hdir] at hreports ⊢
    rw [if_pos hdir]
    by_cases h2 : (w2 >>> 11) &&& 3 = 2
    · rw [if_pos h2] at hreports ⊢
      rw [storeRegisters_refusedOnly_iff s s.ea _ hreports]
      have hlist : (∃ r, listedReversed (w2 &&& 0xff) = [r] ∧ True) ↔
          ∃ r, listed (w2 &&& 0xff) = [r] ∧ True := by
        simp only [listedReversed, List.map_eq_singleton_iff, and_true]
        exact ⟨fun ⟨_, r, hr, _⟩ => ⟨r, hr⟩, fun ⟨r, hr⟩ => ⟨_, r, hr, rfl⟩⟩
      rw [hlist]
      exact ⟨fun h _ => h, fun h => h (Or.inl h2)⟩
    · rw [if_neg h2] at hreports ⊢
      by_cases h0 : (w2 >>> 11) &&& 3 = 0
      · rw [if_pos h0] at hreports ⊢
        rw [storeRegisters_refusedOnly_iff s s.ea _ hreports]
        exact ⟨fun h _ => h, fun h => h (Or.inr h0)⟩
      · rw [if_neg h0] at hreports ⊢
        exact iff_of_true hsimple fun h => absurd h (not_or.2 ⟨h2, h0⟩)
  · rw [if_neg hdir] at hreports ⊢
    rw [if_neg hdir]
    by_cases h2 : (w2 >>> 11) &&& 3 = 2
    · rw [if_pos h2] at hreports ⊢
      rw [loadRegisters_refusedOnly_iff s s.ea _ hreports]
      exact ⟨fun h _ => h, fun h => h h2⟩
    · rw [if_neg h2] at hreports ⊢
      exact iff_of_true hsimple fun h => absurd h h2

end

/-! ## Conditions -/

/-- A known condition, or one that is refused for a data register whose low byte is zero. -/
def QuietCondition (s : M68kiCpu) (w2 : UInt16) : Prop :=
  w2 &&& 0x3f < 0x20 ∨
    eaMode s.ir = 0 ∧ s.d (eaReg s.ir) &&& 0xffffff00 = s.d (eaReg s.ir)

section
variable {s t : M68kiCpu}

/-- A condition is evaluated, or reported and does not hold. -/
theorem testCondition_cases (s : M68kiCpu) (condition : UInt16) :
    (condition < 0x20 ∧ ∃ b, s.testCondition condition = (b, s)) ∨
      ¬ condition < 0x20 ∧ s.testCondition condition = (false, s.fpuReport) := by
  unfold testCondition
  dsimp only
  by_cases h : (0x20 : UInt16) ≤ condition
  · rw [if_pos h]
    exact Or.inr ⟨UInt16.not_lt.2 h, rfl⟩
  · rw [if_neg h]
    exact Or.inl ⟨UInt16.not_le.1 h, _, rfl⟩

theorem condition_refusedOnly_iff (s : M68kiCpu) (hreports : s.fscc.reports ≠ s.reports) :
    RefusedOnly s s.fscc ↔ QuietCondition s s.readImm16.1 := by
  have hword : Same s s.readImm16.2 := Advanced.same ⟨_, rfl⟩
  unfold fscc at hreports ⊢
  unfold QuietCondition
  dsimp only at hreports ⊢
  rcases testCondition_cases s.readImm16.2 (s.readImm16.1 &&& 0x3f) with ⟨hk, b, hb⟩ | ⟨hk, hb⟩
  · rw [hb] at hreports ⊢
    refine iff_of_true ?_ (Or.inl hk)
    dsimp only at hreports ⊢
    split at hreports
    · exact absurd rfl hreports
    · exact absurd rfl hreports
    · exact RefusedOnly.of_same hword rfl
  · rw [hb] at hreports ⊢
    have hreported := hword.reported_fpuReport rfl
    have hir : s.readImm16.2.fpuReport.ir = s.ir := by
      unfold fpuReport
      rw [exception1111_eq]
      rfl
    obtain ⟨hone, hd, hfp, hcr, hsr, -⟩ := fpuReport_kept s.readImm16.2
    obtain ⟨r, hreport⟩ : ∃ r, s.readImm16.2.fpuReport = r := ⟨_, rfl⟩
    rw [hreport] at hreported hone hd hfp hcr hsr hir hreports ⊢
    rw [or_iff_right hk]
    dsimp only at hreports ⊢
    rw [hir] at hreports ⊢
    split
    · rename_i h0
      have hset : Reported s (r.setD (eaReg s.ir) (r.d (eaReg s.ir) &&& 0xffffff00)) :=
        ⟨hreported.reports, hreported.pc, hreported.a, hreported.usp, hreported.isp, hreported.msp,
          hreported.sr, hreported.memory⟩
      show RefusedOnly s (r.setD (eaReg s.ir) ((r.d (eaReg s.ir) &&& 0xffffff00) ||| 0)) ↔ _
      rw [UInt32.or_zero, refusedOnly_iff_of_reported hset]
      show Function.update r.d _ _ = s.d ∧ r.fp = s.fp ∧ r.fpcr = s.fpcr ∧ r.fpsr = s.fpsr ↔ _
      have hd' : r.d = s.d := hd
      rw [hd', Function.update_eq_self_iff]
      exact ⟨fun h => ⟨h0, h.1⟩, fun h => ⟨h.2, hfp, hcr, hsr⟩⟩
    · rename_i h5
      refine iff_of_false (fun h => ?_) fun h => by rw [h.1] at h5; cases h5
      -- the displacement has been read from the handler
      have hpc : r.pc + 2 = r.pc := h.pc.trans hreported.pc.symm
      exact absurd (add_eq_left.1 hpc) (by decide)
    · rename_i h0 _
      refine iff_of_false (fun h => ?_) fun h => h0 h.1
      have htwo := h.reports
      rw [(fpuReport_kept r).1, hone] at htwo
      have hself : s.readImm16.2.reports = s.reports := rfl
      omega

theorem branch16_refusedOnly (s : M68kiCpu) (hreports : s.fbcc16.reports ≠ s.reports) :
    RefusedOnly s s.fbcc16 := by
  have hword : Same s s.readImm16.2 := Advanced.same ⟨_, rfl⟩
  unfold fbcc16 at hreports ⊢
  dsimp only at hreports ⊢
  rcases testCondition_cases s.readImm16.2 (s.ir &&& 0x3f) with ⟨-, b, hb⟩ | ⟨-, hb⟩
  · rw [hb] at hreports
    cases b <;> exact absurd rfl hreports
  · rw [hb]
    exact RefusedOnly.of_same hword rfl

theorem branch32_refusedOnly (s : M68kiCpu) (hreports : s.fbcc32.reports ≠ s.reports) :
    RefusedOnly s s.fbcc32 := by
  have hword : Same s s.readImm32.2 := Advanced.same ⟨_, rfl⟩
  unfold fbcc32 at hreports ⊢
  dsimp only at hreports ⊢
  rcases testCondition_cases s.readImm32.2 (s.ir &&& 0x3f) with ⟨-, b, hb⟩ | ⟨-, hb⟩
  · rw [hb] at hreports
    cases b <;> exact absurd rfl hreports
  · rw [hb]
    exact RefusedOnly.of_same hword rfl

end

/-! ## The instructions -/

def QuietGeneral (arith : SoftFloat) (s : M68kiCpu) (w2 : UInt16) : Prop :=
  match ((w2 >>> 13) &&& 7).toNat with
  | 0 | 2 => QuietOperation arith s w2
  | 4 | 5 => QuietControls s w2
  | 6 | 7 => QuietRegisters s w2
  | _ => True

/-- When the exception is all that a refused instruction does. -/
def Quiet (arith : SoftFloat) (s : M68kiCpu) : Prop :=
  let w2 := s.readImm16.1
  let form := (s.ir >>> 6) &&& 3
  if s.ir &&& 0xff00 = 0xf200 then
    if form = 0 then QuietGeneral arith s w2 else form = 1 → QuietCondition s w2
  else True

section
variable {s t u : M68kiCpu}

/-- What is reported after the words of an instruction have been read. -/
theorem Same.refusedOnly_congr (h : Same s t) (hreports : t.reports = s.reports) :
    RefusedOnly t u ↔ RefusedOnly s u := by
  have hs := h.reported_fpuReport hreports
  have ht := (Same.refl t).reported_fpuReport rfl
  constructor
  · rintro ⟨⟨hrep, hpc, ha, husp, hisp, hmsp, hsr, hmem⟩, hd, hfp, hfpcr, hfpsr⟩
    exact ⟨⟨hrep.trans (congrArg (· + 1) hreports), hpc.trans (ht.pc.symm.trans hs.pc),
      ha.trans (ht.a.symm.trans hs.a), husp.trans (ht.usp.symm.trans hs.usp),
      hisp.trans (ht.isp.symm.trans hs.isp), hmsp.trans (ht.msp.symm.trans hs.msp),
      hsr.trans (ht.sr.symm.trans hs.sr), hmem.trans (ht.memory.symm.trans hs.memory)⟩,
      hd.trans h.d, hfp.trans h.fp, hfpcr.trans h.fpcr, hfpsr.trans h.fpsr⟩
  · rintro ⟨⟨hrep, hpc, ha, husp, hisp, hmsp, hsr, hmem⟩, hd, hfp, hfpcr, hfpsr⟩
    exact ⟨⟨hrep.trans (congrArg (· + 1) hreports.symm), hpc.trans (hs.pc.symm.trans ht.pc),
      ha.trans (hs.a.symm.trans ht.a), husp.trans (hs.usp.symm.trans ht.usp),
      hisp.trans (hs.isp.symm.trans ht.isp), hmsp.trans (hs.msp.symm.trans ht.msp),
      hsr.trans (hs.sr.symm.trans ht.sr), hmem.trans (hs.memory.symm.trans ht.memory)⟩,
      hd.trans h.d.symm, hfp.trans h.fp.symm, hfpcr.trans h.fpcr.symm, hfpsr.trans h.fpsr.symm⟩

theorem reports_writeDown (values : List UInt32) : ∀ (s : M68kiCpu) (a : UInt32),
    (s.writeDown a values).reports = s.reports := by
  induction values with
  | nil => exact fun _ _ => rfl
  | cons value values ih => exact fun s a => ih _ _

theorem reports_writeUp (values : List UInt32) : ∀ (s : M68kiCpu) (a : UInt32),
    (s.writeUp a values).reports = s.reports := by
  induction values with
  | nil => exact fun _ _ => rfl
  | cons value values ih => exact fun s a => ih _ _

theorem reports_performFsave (s : M68kiCpu) (a : UInt32) (inc : Bool) :
    (s.performFsave a inc).reports = s.reports := by
  unfold performFsave
  dsimp only
  split
  · rfl
  · cases inc with
    | true => exact reports_writeUp ..
    | false => exact reports_writeDown ..

theorem fsave_refusedOnly (s : M68kiCpu) (hreports : s.fsave.reports ≠ s.reports) :
    RefusedOnly s s.fsave := by
  unfold fsave at hreports ⊢
  dsimp only at hreports ⊢
  split at hreports
  · split at hreports
    · exact absurd rfl hreports
    · exact absurd (reports_performFsave ..) hreports
  · split at hreports
    · exact absurd rfl hreports
    · exact absurd (reports_performFsave ..) hreports
  · split at hreports
    · exact absurd rfl hreports
    · exact absurd (reports_performFsave ..) hreports
  · exact RefusedOnly.of_same (Same.refl s) rfl

theorem frestore_refusedOnly (s : M68kiCpu) (hreports : s.frestore.reports ≠ s.reports) :
    RefusedOnly s s.frestore := by
  unfold frestore at hreports ⊢
  dsimp only at hreports ⊢
  split at hreports
  · split at hreports <;> exact absurd rfl hreports
  · split at hreports <;> exact absurd rfl hreports
  · exact RefusedOnly.of_same (Same.refl s) rfl

theorem frame_refusedOnly (s : M68kiCpu) (hreports : s.fpuOp1.reports ≠ s.reports) :
    RefusedOnly s s.fpuOp1 := by
  have hsame : Same s { s with fpiar := s.ppc } :=
    ⟨rfl, rfl, rfl, rfl, rfl, rfl, rfl, rfl, rfl, rfl, rfl, rfl, rfl⟩
  unfold fpuOp1 at hreports ⊢
  dsimp only at hreports ⊢
  by_cases hsave : (s.ir >>> 6) &&& 3 = 0
  · rw [if_pos hsave] at hreports ⊢
    exact (hsame.refusedOnly_congr rfl).1 (fsave_refusedOnly _ hreports)
  · rw [if_neg hsave] at hreports ⊢
    by_cases hrestore : (s.ir >>> 6) &&& 3 = 1
    · rw [if_pos hrestore] at hreports ⊢
      exact (hsame.refusedOnly_congr rfl).1 (frestore_refusedOnly _ hreports)
    · rw [if_neg hrestore]
      exact RefusedOnly.of_same hsame rfl

end

theorem general_refusedOnly_iff (arith : SoftFloat) (s : M68kiCpu) (w2 : UInt16)
    (hreports : (s.general arith w2).reports ≠ s.reports) :
    RefusedOnly s (s.general arith w2) ↔ QuietGeneral arith s w2 := by
  have hsimple : RefusedOnly s s.fpuReport := RefusedOnly.of_same (Same.refl s) rfl
  unfold M68kiCpu.general at hreports ⊢
  unfold QuietGeneral
  generalize ((w2 >>> 13) &&& 7).toNat = n at hreports ⊢
  match n with
  | 0 | 2 => exact operation_refusedOnly_iff arith s w2 hreports
  | 3 => exact iff_of_true (store_refusedOnly arith s w2 hreports) trivial
  | 4 | 5 => exact controls_refusedOnly_iff s w2 hreports
  | 6 | 7 => exact registers_refusedOnly_iff s w2 hreports
  | 1 | _ + 8 => exact iff_of_true hsimple trivial

/-- A refused instruction takes one exception and does nothing else exactly if it is quiet. -/
theorem refusedOnly_iff (arith : SoftFloat) (s : M68kiCpu)
    (hrefused : (s.execute arith).reports ≠ s.reports) :
    RefusedOnly s (s.execute arith) ↔ Quiet arith s := by
  have hsame : Same s { s with fpuJustReset := false, fpiar := s.ppc } :=
    ⟨rfl, rfl, rfl, rfl, rfl, rfl, rfl, rfl, rfl, rfl, rfl, rfl, rfl⟩
  have hword : Same s { s with fpuJustReset := false, fpiar := s.ppc, pc := s.pc + 2 } :=
    ⟨rfl, rfl, rfl, rfl, rfl, rfl, rfl, rfl, rfl, rfl, rfl, rfl, rfl⟩
  unfold execute at hrefused ⊢
  unfold Quiet
  dsimp only
  by_cases hmodel : s.fpuModel = .none
  · rw [if_pos hmodel, exception1111_eq] at hrefused
    exact absurd rfl hrefused
  rw [if_neg hmodel] at hrefused ⊢
  by_cases hop : s.ir &&& 0xff00 = 0xf200
  · rw [if_pos hop] at hrefused ⊢
    rw [if_pos hop]
    unfold fpuOp0 at hrefused ⊢
    dsimp only at hrefused ⊢
    by_cases hgeneral : (s.ir >>> 6) &&& 3 = 0
    · rw [if_pos hgeneral] at hrefused ⊢
      rw [if_pos hgeneral]
      exact (hword.refusedOnly_congr rfl).symm.trans (general_refusedOnly_iff arith _ _ hrefused)
    · rw [if_neg hgeneral] at hrefused ⊢
      rw [if_neg hgeneral]
      by_cases hcondition : (s.ir >>> 6) &&& 3 = 1
      · rw [if_pos hcondition] at hrefused ⊢
        rw [forall_prop_of_true hcondition]
        exact (hsame.refusedOnly_congr rfl).symm.trans (condition_refusedOnly_iff _ hrefused)
      · rw [if_neg hcondition] at hrefused ⊢
        refine iff_of_true ((hsame.refusedOnly_congr rfl).1 ?_) fun h => absurd h hcondition
        by_cases hword16 : (s.ir >>> 6) &&& 3 = 2
        · rw [if_pos hword16] at hrefused ⊢
          exact branch16_refusedOnly _ hrefused
        · rw [if_neg hword16] at hrefused ⊢
          exact branch32_refusedOnly _ hrefused
  · rw [if_neg hop] at hrefused ⊢
    rw [if_neg hop]
    exact iff_of_true (frame_refusedOnly s hrefused) trivial

/-- An instruction and its extension word at `0x1000`, with ones in all registers. -/
def refusedAt (opcode extension : UInt16) : M68kiCpu where
  d := fun _ => 1
  a := fun _ => 0x8000
  isp := 0x8000
  ppc := 0x1000
  pc := 0x1002
  ir := opcode
  fp := fun _ => ⟨0x3fff, 0x8000000000000000⟩
  fpuModel := .m68882
  memory := put (fun _ => 0) 0x1002 (bytesOf extension.toNat 2)

/-- An opmode that is not defined. -/
theorem refusedOnly_undefined : RefusedOnly (refusedAt 0xf200 0x003b) ((refusedAt 0xf200 0x003b).execute default) :=
  (refusedOnly_iff default (refusedAt 0xf200 0x003b) (by decide +kernel)).2 rfl

/-- `FMOVE.L A0,FP0` is refused, and FP0 is zero then. -/
theorem not_refusedOnly : ¬ ∀ (arith : SoftFloat) (s : M68kiCpu),
    (s.execute arith).reports ≠ s.reports → RefusedOnly s (s.execute arith) := by
  intro h
  have hrefused : ((refusedAt 0xf208 0x4000).execute default).reports
      ≠ (refusedAt 0xf208 0x4000).reports := by
    decide +kernel
  have hlost : ((refusedAt 0xf208 0x4000).execute default).fp 0 ≠ (refusedAt 0xf208 0x4000).fp 0 := by
    decide +kernel
  exact hlost (congrFun (h default (refusedAt 0xf208 0x4000) hrefused).fp 0)

end CuteMac.Fpu

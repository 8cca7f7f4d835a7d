/-
  Address translation for the debugger (`pmmu_debug_translate_addr`).

  * `M68kCpu`, `translate`: a processor with its table-walk flag and what a bus
    error exception changes, under one translation;
  * `debugTranslateAddr`: a translation that puts back what it changed;
  * `debugTranslateAddr_state`: it changes nothing;
  * `Apart040`, `read_debug_040`: it finds the address of a read of the 68040,
    where the entries of the walk are words of their own;
  * `TablesKept`, `Use`, `useStep`: what the 68030 does while its tables stay;
  * `Finds`, `useStep_finds`: the cache then knows the pages that the tables know;
  * `debug_observes`: both together.

  What is outside the memory management unit is a parameter, with the effect of a
  bus error exception on it.
-/
import CuteMac.Cpu.TranslationCache

namespace CuteMac.Cpu

open ByteMemory Pages Machine

/-! ## Processors -/

structure M68kCpu (ρ : Type*) where
  mmu : M68kMmu
  /-- `mmu_tablewalk` -/
  tablewalk : Bool
  rest : ρ

/-- Whether a translation walks tables, and so sets the flag and clears it. -/
def walksTables (s : M68kMmu) (logical fc : UInt32) (rw : Bool) (intent : PmmuIntent)
    (limit : Nat) : Bool :=
  if s.regs.kind = .m68040 then
    let (tt0, tt1) := transparent040 s.regs fc
    fc &&& 3 != 0 && (pmmuMatchTt040 logical fc tt0 rw {}).isNone &&
      (pmmuMatchTt040 logical fc tt1 rw {}).isNone && s.regs.pmmuEnabled
  else
    !transparent s.regs logical fc rw && !(intent == .ptest && limit == 0) &&
      !((intent == .normal || intent == .probe) &&
        (atcScan s.regs logical fc rw false s.atc).2.isSome)

variable {ρ : Type*} (busError : ρ → ρ)

/-- `pmmu_translate`, with the flag and the exception. -/
def M68kCpu.translate (c : M68kCpu ρ) (logical fc : UInt32) (rw : Bool) (size : Nat)
    (intent : PmmuIntent) (limit : Nat) : M68kCpu ρ × TranslationResult :=
  let (mmu, result) := pmmuTranslate c.mmu logical fc rw size intent limit
  ({ mmu := mmu
     tablewalk := if walksTables c.mmu logical fc rw intent limit then false else c.tablewalk
     rest := if result.fault ∧ intent = .normal then busError c.rest else c.rest }, result)

/-- `pmmu_debug_translate_addr`. -/
def M68kCpu.debugTranslateAddr (c : M68kCpu ρ) (address fc : UInt32) : M68kCpu ρ × UInt32 :=
  let (t, result) := c.translate busError address fc true 1 .debug 7
  ({ t with
    mmu := { t.mmu with
      lastLogicalAddr := c.mmu.lastLogicalAddr
      tmpSr := c.mmu.tmpSr
      faultInfo := c.mmu.faultInfo }
    tablewalk := c.tablewalk }, result.physicalAddress)

/-! ## Walks without side effects -/

section
variable {r : Registers} {error : UInt32 → Bool} {fc address : UInt32} {rw : Bool}

theorem fetch_memory (w : Walk) (indirect isLong : Bool) :
    (w.fetch error indirect address isLong).1.memory = w.memory := by
  unfold Walk.fetch
  simp only [readDescriptor_eq]
  split_ifs <;> rfl

theorem walkStep_memory (w : Walk) : (walkStep r error fc rw false w).memory = w.memory := by
  by_cases h0 : w.type = dfDtInvalid
  · rw [walkStep_invalid h0]
  by_cases h1 : w.type = dfDtPage
  · rw [walkStep_page h1]
  have hmemory : (fetchStep r error fc w).1.memory = w.memory := fetch_memory _ _ _
  cases hd : (fetchStep r error fc w).2 with
  | none =>
    rw [walkStep_none h0 h1 rfl hd]
    exact hmemory
  | some d =>
    rw [walkStep_some h0 h1 rfl hd, useDescriptor_memory]
    exact hmemory

theorem walkLoop_memory (limit fuel : Nat) (w : Walk) :
    (walkLoop r error fc rw false limit fuel w).memory = w.memory := by
  induction fuel generalizing w with
  | zero => rfl
  | succ fuel ih =>
    rw [walkLoop_succ]
    split_ifs
    · exact walkStep_memory w
    · rw [ih, walkStep_memory]

theorem tableEntry040_memory (w : Walk040) :
    (tableEntry040 error w address rw false).1.memory = w.memory := by
  unfold tableEntry040
  simp only [Walk040.read, Walk040.mark]
  split_ifs <;> simp_all

/-- The page entry that a walk uses: where it is, what it says, and the status. -/
def pageWord040 (error : UInt32 → Bool) (w : Walk040) (address : UInt32) :
    UInt32 × UInt32 × UInt16 :=
  let entry := read32 w.memory address
  if entry &&& 3 = 2 then
    let target := entry &&& ~~~3
    (target, if read32 w.memory target &&& 3 = 2 then 0 else read32 w.memory target,
      { w with tmpSr := w.reported error address : Walk040 }.reported error target)
  else (address, entry, w.reported error address)

theorem pageEntry040_eq (w : Walk040) (sideEffects : Bool) (frameMask pageOffset : UInt32) :
    pageEntry040 error w address fc rw sideEffects frameMask pageOffset =
      let (address, entry, tmpSr) := pageWord040 error w address
      let w := { w with tmpSr := tmpSr }
      if tmpSr &&& srBusError ≠ 0 ∨ entry &&& 1 = 0 then (w, .error .invalid)
      else if (!rw ∧ entry &&& dfWp ≠ 0) ∨ (fc &&& 4 = 0 ∧ entry &&& mmu040Supervisor ≠ 0) then
        (w, .error .protectedPage)
      else
        (w.mark error sideEffects address entry (entry ||| dfUsed ||| if rw then 0 else dfModified),
          .ok ((entry &&& frameMask) ||| pageOffset)) := by
  unfold pageEntry040 pageWord040
  rw [show w.read error address =
    (read32 w.memory address, { w with tmpSr := w.reported error address }) from rfl]
  dsimp only
  by_cases hindirect : read32 w.memory address &&& 3 = 2
  · rw [if_pos hindirect, if_pos hindirect]
    rfl
  · rw [if_neg hindirect, if_neg hindirect]

theorem pageEntry040_memory (w : Walk040) (frameMask pageOffset : UInt32) :
    (pageEntry040 error w address fc rw false frameMask pageOffset).1.memory = w.memory := by
  rw [pageEntry040_eq]
  obtain ⟨address', entry, tmpSr⟩ := pageWord040 error w address
  simp only [Walk040.mark, Bool.false_eq_true, false_and, if_false]
  split_ifs <;> rfl

/-- Where the entries of a walk are. -/
def rootAddress040 (r : Registers) (logical fc : UInt32) : UInt32 :=
  (if fc &&& 4 ≠ 0 then r.srpAptr else r.urpAptr) + ((logical >>> 25) &&& 0x7f) * 4

def pointerAddress040 (rootEntry logical : UInt32) : UInt32 :=
  (rootEntry &&& ~~~(0x1ff : UInt32)) + ((logical >>> 18) &&& 0x7f) * 4

def pageAddress040 (r : Registers) (pointerEntry logical : UInt32) : UInt32 :=
  let table : UInt32 := pointerEntry &&& if largePages r then ~~~0x7f else ~~~0xff
  table + (if largePages r then (logical >>> 13) &&& 0x1f else (logical >>> 12) &&& 0x3f) * 4

variable {memory : Memory} {logical : UInt32} {sideEffects : Bool} {w w' : Walk040}

theorem walk040_eq (r : Registers) (error : UInt32 → Bool) (memory : Memory)
    (logical fc : UInt32) (rw sideEffects : Bool) :
    walk040 r error memory logical fc rw sideEffects =
      match tableEntry040 error { memory := memory } (rootAddress040 r logical fc) rw sideEffects with
      | (w, .error e) => (w, .error e)
      | (w, .ok rootEntry) =>
        match tableEntry040 error w (pointerAddress040 rootEntry logical) rw sideEffects with
        | (w, .error e) => (w, .error e)
        | (w, .ok pointerEntry) =>
          pageEntry040 error w (pageAddress040 r pointerEntry logical) fc rw sideEffects
            (~~~pageOffsetMask040 r) (logical &&& pageOffsetMask040 r) := rfl

theorem walk040_root_error {e : Refusal040}
    (h : tableEntry040 error { memory := memory } (rootAddress040 r logical fc) rw sideEffects =
      (w, .error e)) :
    walk040 r error memory logical fc rw sideEffects = (w, .error e) := by
  rw [walk040_eq, h]

theorem walk040_pointer_error {rootEntry : UInt32} {e : Refusal040}
    (h : tableEntry040 error { memory := memory } (rootAddress040 r logical fc) rw sideEffects =
      (w, .ok rootEntry))
    (h' : tableEntry040 error w (pointerAddress040 rootEntry logical) rw sideEffects =
      (w', .error e)) :
    walk040 r error memory logical fc rw sideEffects = (w', .error e) := by
  rw [walk040_eq, h]
  dsimp only
  rw [h']

theorem walk040_page {rootEntry pointerEntry : UInt32}
    (h : tableEntry040 error { memory := memory } (rootAddress040 r logical fc) rw sideEffects =
      (w, .ok rootEntry))
    (h' : tableEntry040 error w (pointerAddress040 rootEntry logical) rw sideEffects =
      (w', .ok pointerEntry)) :
    walk040 r error memory logical fc rw sideEffects =
      pageEntry040 error w' (pageAddress040 r pointerEntry logical) fc rw sideEffects
        (~~~pageOffsetMask040 r) (logical &&& pageOffsetMask040 r) := by
  rw [walk040_eq, h]
  dsimp only
  rw [h']

theorem walk040_memory :
    (walk040 r error memory logical fc rw false).1.memory = memory := by
  have hroot : (tableEntry040 error { memory := memory } (rootAddress040 r logical fc) rw
      false).1.memory = memory := tableEntry040_memory _
  rcases h : tableEntry040 error { memory := memory } (rootAddress040 r logical fc) rw false with
    ⟨w, e | rootEntry⟩
  · rw [walk040_root_error h]
    rw [h] at hroot
    exact hroot
  rw [h] at hroot
  have hpointer : (tableEntry040 error w (pointerAddress040 rootEntry logical) rw
      false).1.memory = memory := (tableEntry040_memory w).trans hroot
  rcases h' : tableEntry040 error w (pointerAddress040 rootEntry logical) rw false with
    ⟨w', e | pointerEntry⟩
  · rw [walk040_pointer_error h h']
    rw [h'] at hpointer
    exact hpointer
  · rw [walk040_page h h', pageEntry040_memory]
    rw [h'] at hpointer
    exact hpointer

end

/-! ## Nothing changes -/

theorem pmmuTranslate040_debug (s : M68kMmu) (logical fc : UInt32) (rw : Bool) :
    ∃ tmpSr, (pmmuTranslate040 s logical fc rw false).1 = { s with tmpSr := tmpSr } := by
  unfold pmmuTranslate040
  dsimp only
  by_cases hfc : fc &&& 3 = 0
  · rw [if_pos hfc]
    exact ⟨s.tmpSr, rfl⟩
  rw [if_neg hfc]
  split
  · exact ⟨s.tmpSr, rfl⟩
  by_cases hdisabled : (!s.regs.pmmuEnabled) = true
  · rw [if_pos hdisabled]
    exact ⟨s.tmpSr, rfl⟩
  rw [if_neg hdisabled]
  have hmemory : (walk040 s.regs s.physicalError s.memory logical fc rw false).1.memory =
      s.memory := walk040_memory
  rcases h : walk040 s.regs s.physicalError s.memory logical fc rw false with
    ⟨⟨memory, tmpSr⟩, (_ | _) | physical⟩
  all_goals
    rw [h] at hmemory
    obtain rfl : memory = s.memory := hmemory
    exact ⟨tmpSr, rfl⟩

theorem pmmuWalkTables_debug (s : M68kMmu) (logical fc : UInt32) (rw : Bool) (limit : Nat)
    (result : TranslationResult) :
    ∃ tmpSr, (pmmuWalkTables s logical fc rw limit false result).1 = { s with tmpSr := tmpSr } := by
  have hmemory : (walkLoop s.regs s.physicalError fc rw false limit 7
      (Walk.start s.regs s.memory s.tmpSr logical fc result)).memory = s.memory :=
    walkLoop_memory limit 7 _
  unfold pmmuWalkTables
  dsimp only
  rw [hmemory]
  exact ⟨_, rfl⟩

/-- A translation for the debugger only leaves where it was and its status. -/
theorem pmmuTranslate_debug (s : M68kMmu) (logical fc : UInt32) (rw : Bool) (size limit : Nat) :
    ∃ lastLogicalAddr tmpSr, (pmmuTranslate s logical fc rw size .debug limit).1 =
      { s with lastLogicalAddr := lastLogicalAddr, tmpSr := tmpSr } := by
  unfold pmmuTranslate
  by_cases hkind : s.regs.kind = .m68040
  · rw [if_pos hkind]
    obtain ⟨tmpSr, htranslate⟩ := pmmuTranslate040_debug s logical fc rw
    refine ⟨s.lastLogicalAddr, (pmmuTranslate040 s logical fc rw false).2.status, ?_⟩
    show recordFault (pmmuTranslate040 s logical fc rw false).1 _ _ _ _ _ _ = _
    rw [htranslate, recordFault, if_neg (by simp)]
    rfl
  · rw [if_neg hkind]
    dsimp only
    by_cases htransparent : transparent s.regs logical fc rw = true
    · rw [if_pos htransparent]
      exact ⟨_, _, rfl⟩
    · rw [if_neg htransparent]
      obtain ⟨tmpSr, hwalk⟩ := pmmuWalkTables_debug
        { s with lastLogicalAddr := logical, tmpSr := 0 } logical fc rw limit
        { physicalAddress := logical }
      refine ⟨logical, (pmmuWalkTables { s with lastLogicalAddr := logical, tmpSr := 0 } logical fc
        rw limit false { physicalAddress := logical }).2.status, ?_⟩
      show recordFault (pmmuWalkTables { s with lastLogicalAddr := logical, tmpSr := 0 } logical fc
        rw limit false { physicalAddress := logical }).1 _ _ _ _ _ _ = _
      rw [hwalk, recordFault, if_neg (by simp)]
      rfl

/-- The debugger leaves the processor and the memory as they are. -/
theorem debugTranslateAddr_state (c : M68kCpu ρ) (address fc : UInt32) :
    (c.debugTranslateAddr busError address fc).1 = c := by
  obtain ⟨lastLogicalAddr, tmpSr, htranslate⟩ := pmmuTranslate_debug c.mmu address fc true 1 7
  unfold M68kCpu.debugTranslateAddr M68kCpu.translate
  dsimp only
  rw [htranslate, if_neg (by simp)]

/-! ## Reads of the 68040 -/

/-- No byte is part of both words. -/
def Apart (x y : UInt32) : Prop := ∀ b ∈ span x 4, b ∉ span y 4

instance (x y : UInt32) : Decidable (Apart x y) :=
  List.decidableBAll (fun b => b ∉ span y 4) (span x 4)

/-- Where the entries of a walk are; `target` is the entry that an indirect one leads to. -/
structure Entries040 where
  root : UInt32
  pointer : UInt32
  page : UInt32
  target : UInt32

def entries040 (r : Registers) (memory : Memory) (logical fc : UInt32) : Entries040 :=
  let root := rootAddress040 r logical fc
  let pointer := pointerAddress040 (read32 memory root) logical
  let page := pageAddress040 r (read32 memory pointer) logical
  let entry := read32 memory page
  { root := root
    pointer := pointer
    page := page
    target := if entry &&& 3 = 2 then entry &&& ~~~3 else page }

/-- No byte of the tables is part of two of the entries that a walk goes through. -/
structure Apart040 (s : M68kMmu) (logical fc : UInt32) : Prop where
  rootPointer : Apart (entries040 s.regs s.memory logical fc).root
    (entries040 s.regs s.memory logical fc).pointer
  rootPage : Apart (entries040 s.regs s.memory logical fc).root
    (entries040 s.regs s.memory logical fc).page
  rootTarget : Apart (entries040 s.regs s.memory logical fc).root
    (entries040 s.regs s.memory logical fc).target
  pointerPage : Apart (entries040 s.regs s.memory logical fc).pointer
    (entries040 s.regs s.memory logical fc).page
  pointerTarget : Apart (entries040 s.regs s.memory logical fc).pointer
    (entries040 s.regs s.memory logical fc).target

section
variable {error : UInt32 → Bool} {w w' v : Walk040} {address entry : UInt32} {x y : UInt32}

theorem Apart.read32 (h : Apart x y) (m : Memory) (value : UInt32) :
    read32 (write32 m x value) y = ByteMemory.read32 m y :=
  compose_congr fun b hb => store_of_notMem value fun hx => h b hx hb

theorem no_error_of_report {tmpSr : UInt16}
    (h : (tmpSr ||| flag (error address) (srBusError ||| srInvalid)) &&& srBusError = 0) :
    error address = false := by
  cases he : error address with
  | false => rfl
  | true =>
    have hbit := congrArg (fun x => x.toBitVec.getLsbD 15) h
    simp [he, flag, srBusError, srInvalid] at hbit

/-- What an entry says of which a read leaves its mark. -/
structure Read040 (error : UInt32 → Bool) (w w' : Walk040) (address entry : UInt32) : Prop where
  noError : error address = false
  status : w.tmpSr &&& srBusError = 0
  resident : read32 w.memory address &&& 2 ≠ 0
  entry : entry = read32 w.memory address ||| dfUsed
  tmpSr : w'.tmpSr = w.tmpSr
  frame : ∀ x, Apart address x → read32 w'.memory x = read32 w.memory x

theorem tableEntry040_read (h : tableEntry040 error w address true true = (w', .ok entry)) :
    Read040 error w w' address entry := by
  unfold tableEntry040 at h
  simp only [Walk040.read, Bool.not_true, Bool.false_eq_true, false_and, if_false, if_true] at h
  split_ifs at h with hrefused
  · cases h
  rw [not_or, not_not] at hrefused
  have herror : error address = false := no_error_of_report hrefused.1
  have hreport : w.reported error address = w.tmpSr := by simp [Walk040.reported, herror, flag]
  rw [hreport] at h hrefused
  obtain ⟨hw, hentry⟩ := Prod.mk.inj h
  injection hentry with hentry
  subst hw
  refine ⟨herror, hrefused.1, hrefused.2, hentry.symm, ?_, fun x hx => ?_⟩
  · unfold Walk040.mark
    split_ifs
    · simp [Walk040.write, Walk040.reported, herror, flag]
    · rfl
  · unfold Walk040.mark
    split_ifs
    · simp [Walk040.write, herror, hx.read32]
    · rfl

/-- A walk for the debugger reads the same entry where its word is the same. -/
theorem Read040.debug (h : Read040 error w w' address entry) (htmp : v.tmpSr = w.tmpSr)
    (hword : read32 v.memory address = read32 w.memory address) :
    tableEntry040 error v address true false = (v, .ok (read32 w.memory address)) := by
  have hreport : v.reported error address = v.tmpSr := by
    simp [Walk040.reported, h.noError, flag]
  unfold tableEntry040
  simp only [Walk040.read, Walk040.mark, hreport, hword, Bool.not_true, Bool.false_eq_true,
    false_and, if_false]
  rw [htmp, if_neg (by simp [h.status, h.resident]), ← htmp]
  simp

theorem used_frame (entry mask : UInt32) (h : dfUsed &&& mask = 0) :
    (entry ||| dfUsed) &&& mask = entry &&& mask := Pages.or_and_of_disjoint h

theorem pointerAddress040_used (entry logical : UInt32) :
    pointerAddress040 (entry ||| dfUsed) logical = pointerAddress040 entry logical := by
  unfold pointerAddress040
  rw [used_frame entry _ (by decide)]

theorem pageAddress040_used (r : Registers) (entry logical : UInt32) :
    pageAddress040 r (entry ||| dfUsed) logical = pageAddress040 r entry logical := by
  unfold pageAddress040
  cases largePages r
  · simp only [Bool.false_eq_true, if_false]
    rw [used_frame entry _ (by decide)]
  · simp only [if_true]
    rw [used_frame entry _ (by decide)]

/-- A page entry says the same where the words are the same. -/
theorem pageEntry040_congr {fc frameMask pageOffset : UInt32} (rw sideEffects sideEffects' : Bool)
    (htmp : v.tmpSr = w.tmpSr) (hword : read32 v.memory address = read32 w.memory address)
    (htarget : read32 w.memory address &&& 3 = 2 →
      read32 v.memory (read32 w.memory address &&& ~~~3) =
        read32 w.memory (read32 w.memory address &&& ~~~3)) :
    (pageEntry040 error v address fc rw sideEffects frameMask pageOffset).2 =
      (pageEntry040 error w address fc rw sideEffects' frameMask pageOffset).2 := by
  have hsame : pageWord040 error v address = pageWord040 error w address := by
    unfold pageWord040 Walk040.reported
    dsimp only
    rw [hword, htmp]
    by_cases hindirect : read32 w.memory address &&& 3 = 2
    · rw [if_pos hindirect, if_pos hindirect, htarget hindirect]
    · rw [if_neg hindirect, if_neg hindirect]
  rw [pageEntry040_eq, pageEntry040_eq, hsame]
  dsimp only
  split_ifs <;> rfl

end

variable {s : M68kMmu} {logical fc : UInt32}

/-- A read that finds its page finds the one that the debugger finds. -/
theorem walk040_debug (hapart : Apart040 s logical fc) {physical : UInt32}
    (h : (walk040 s.regs s.physicalError s.memory logical fc true true).2 = .ok physical) :
    (walk040 s.regs s.physicalError s.memory logical fc true false).2 = .ok physical := by
  rcases hroot : tableEntry040 s.physicalError { memory := s.memory }
    (rootAddress040 s.regs logical fc) true true with ⟨w, e | rootEntry⟩
  · rw [walk040_root_error hroot] at h
    cases h
  rcases hpointer : tableEntry040 s.physicalError w (pointerAddress040 rootEntry logical) true true
    with ⟨w', e | pointerEntry⟩
  · rw [walk040_pointer_error hroot hpointer] at h
    cases h
  rw [walk040_page hroot hpointer] at h
  have hread := tableEntry040_read hroot
  have hread' := tableEntry040_read hpointer
  rw [hread.entry, pointerAddress040_used] at hread'
  have hentry := hread'.entry
  have hword : read32 w.memory (entries040 s.regs s.memory logical fc).pointer =
      read32 s.memory (entries040 s.regs s.memory logical fc).pointer :=
    hread.frame _ hapart.rootPointer
  have hkept : ∀ x, Apart (entries040 s.regs s.memory logical fc).root x →
      Apart (entries040 s.regs s.memory logical fc).pointer x →
      read32 s.memory x = read32 w'.memory x := by
    intro x hx hx'
    exact ((hread'.frame x hx').trans (hread.frame x hx)).symm
  have hdebug := hread.debug (v := { memory := s.memory }) rfl rfl
  have hdebug' := hread'.debug (v := { memory := s.memory }) hread.tmpSr.symm hword.symm
  rw [walk040_page hdebug hdebug', ← h, hentry, pageAddress040_used]
  have hpage := hkept _ hapart.rootPage hapart.pointerPage
  have htarget := hkept _ hapart.rootTarget hapart.pointerTarget
  have haddress : pageAddress040 s.regs
      (read32 w.memory (entries040 s.regs s.memory logical fc).pointer) logical =
        (entries040 s.regs s.memory logical fc).page := by
    rw [hword]
    rfl
  show (pageEntry040 _ _ (pageAddress040 s.regs
    (read32 w.memory (entries040 s.regs s.memory logical fc).pointer) logical) _ _ _ _ _).2 =
      (pageEntry040 _ _ (pageAddress040 s.regs
        (read32 w.memory (entries040 s.regs s.memory logical fc).pointer) logical) _ _ _ _ _).2
  rw [haddress]
  refine pageEntry040_congr true false true (hread'.tmpSr.trans hread.tmpSr).symm hpage ?_
  intro hindirect
  rw [← hpage] at hindirect ⊢
  have hentries : (entries040 s.regs s.memory logical fc).target =
      read32 s.memory (entries040 s.regs s.memory logical fc).page &&& ~~~3 := if_pos hindirect
  rw [hentries] at htarget
  exact htarget

/-- A read of the 68040 that does not fault uses the address that the debugger finds. -/
theorem read_debug_040 (hapart : Apart040 s logical fc)
    (hread : (pmmuTranslate040 s logical fc true true).2.fault = false) :
    (pmmuTranslate040 s logical fc true true).2.physicalAddress =
      (pmmuTranslate040 s logical fc true false).2.physicalAddress := by
  unfold pmmuTranslate040 at hread ⊢
  dsimp only at hread ⊢
  by_cases hfc : fc &&& 3 = 0
  · rw [if_pos hfc, if_pos hfc]
  rw [if_neg hfc] at hread ⊢
  rw [if_neg hfc]
  cases htt : (pmmuMatchTt040 logical fc (transparent040 s.regs fc).1 true
      { physicalAddress := logical }).orElse fun _ =>
        pmmuMatchTt040 logical fc (transparent040 s.regs fc).2 true
          { physicalAddress := logical } with
  | some result => rfl
  | none =>
    rw [htt] at hread
    dsimp only at hread ⊢
    by_cases hdisabled : (!s.regs.pmmuEnabled) = true
    · rw [if_pos hdisabled, if_pos hdisabled]
    rw [if_neg hdisabled] at hread ⊢
    rw [if_neg hdisabled]
    have hdebug := fun physical => @walk040_debug s logical fc hapart physical
    rcases hw : walk040 s.regs s.physicalError s.memory logical fc true true with
      ⟨w, (_ | _) | physical⟩
    · rw [hw] at hread
      cases hread
    · rw [hw] at hread
      cases hread
    · rw [hw] at hdebug
      have hsame := hdebug physical rfl
      rcases hv : walk040 s.regs s.physicalError s.memory logical fc true false with ⟨v, ending⟩
      rw [hv] at hsame
      obtain rfl : ending = .ok physical := hsame
      rfl

/-! ## Tables that stay -/

section
variable {r : Registers} {error : UInt32 → Bool} {fc address : UInt32} {m' : Memory} {w : Walk}

/-- The words of descriptors are the same in another memory. -/
def SamePlaces (places : List Place) (m m' : Memory) : Prop :=
  ∀ p ∈ places, ∀ x ∈ p.words, read32 m' x = read32 m x

theorem words_same {m : Memory} {isLong indirect : Bool} {x : UInt32}
    (h : ∀ y ∈ Place.words ⟨x, isLong, indirect⟩, read32 m' y = read32 m y) :
    read32 m' x = read32 m x := h x (List.mem_cons_self ..)

theorem words_same_second {m : Memory} {isLong indirect : Bool} {x : UInt32}
    (h : ∀ y ∈ Place.words ⟨x, isLong, indirect⟩, read32 m' y = read32 m y) :
    (if isLong then read32 m' (x + 4) else 0) = if isLong then read32 m (x + 4) else 0 := by
  cases isLong with
  | false => simp
  | true =>
    rw [if_pos rfl, if_pos rfl]
    exact h (x + 4) (by simp [Place.words])

theorem fetch_samePlaces {indirect isLong : Bool}
    (h : SamePlaces (w.places error indirect address isLong) w.memory m') :
    Walk.places error { w with memory := m' } indirect address isLong =
        w.places error indirect address isLong ∧
      Walk.fetch error { w with memory := m' } indirect address isLong =
        ({ (w.fetch error indirect address isLong).1 with memory := m' },
          (w.fetch error indirect address isLong).2) := by
  unfold Walk.places at h
  unfold Walk.places Walk.fetch
  simp only [readDescriptor_eq] at h ⊢
  by_cases herror : (w.tmpSr ||| readStatus error address isLong) &&& srBusError = 0
  · rw [if_neg (not_not.2 herror)] at h
    simp only [if_neg (not_not.2 herror)]
    by_cases hind : (indirect && (read32 w.memory address &&& dfDt == dfDtTable4Byte ||
        read32 w.memory address &&& dfDt == dfDtTable8Byte)) = true
    · rw [if_pos hind] at h
      have hpointer := h _ (List.mem_cons_self ..)
      have hplace := h _ (List.mem_cons_of_mem _ (List.mem_singleton_self _))
      rw [words_same hpointer, words_same_second hpointer]
      simp only [if_pos hind]
      generalize hx : (if isLong then if isLong then read32 w.memory (address + 4) else 0
        else read32 w.memory address) &&& dfIndAddrMask = x at hplace ⊢
      rw [words_same hplace, words_same_second hplace]
      split_ifs <;> exact ⟨trivial, rfl⟩
    · rw [if_neg hind] at h
      have hplace := h _ (List.mem_singleton_self _)
      rw [words_same hplace, words_same_second hplace]
      simp only [if_neg hind]
      exact ⟨trivial, trivial⟩
  · simp only [if_pos herror]
    exact ⟨trivial, trivial⟩

theorem walkStep_samePlaces (h : SamePlaces (stepPlaces r error fc w) w.memory m') :
    stepPlaces r error fc { w with memory := m' } = stepPlaces r error fc w ∧
      walkStep r error fc true false { w with memory := m' } =
        { walkStep r error fc true false w with memory := m' } := by
  by_cases h0 : w.type = dfDtInvalid
  · rw [walkStep_invalid h0, walkStep_invalid (w := { w with memory := m' }) h0]
    exact ⟨by rw [stepPlaces, stepPlaces, if_pos (.inl h0), if_pos (.inl h0)], rfl⟩
  by_cases h1 : w.type = dfDtPage
  · rw [walkStep_page h1, walkStep_page (w := { w with memory := m' }) h1]
    exact ⟨by rw [stepPlaces, stepPlaces, if_pos (.inr h1), if_pos (.inr h1)], rfl⟩
  have hplaces : ∀ v : Walk, v.type = w.type → stepPlaces r error fc v =
      v.places error (lastField r v.bitpos) (descriptorAddress r fc v) (v.type == dfDtTable8Byte) :=
    fun v hv => if_neg (by rw [hv]; exact not_or.2 ⟨h0, h1⟩)
  rw [hplaces w rfl, ← places_bitpos w (nextField w.bitpos)] at h
  obtain ⟨hsame, hfetch⟩ := fetch_samePlaces (w := { w with bitpos := nextField w.bitpos }) h
  have hstep : fetchStep r error fc { w with memory := m' } =
      ({ (fetchStep r error fc w).1 with memory := m' }, (fetchStep r error fc w).2) := hfetch
  refine ⟨?_, ?_⟩
  · rw [hplaces w rfl, hplaces { w with memory := m' } rfl, ← places_bitpos w (nextField w.bitpos),
      ← hsame]
    exact (places_bitpos _ _ _ _ _).symm
  · cases hd : (fetchStep r error fc w).2 with
    | none =>
      rw [walkStep_none h0 h1 rfl hd, walkStep_none (w := { w with memory := m' }) h0 h1 rfl
        (by rw [hstep]; exact hd), hstep]
      rfl
    | some d =>
      rw [walkStep_some h0 h1 rfl hd, walkStep_some (w := { w with memory := m' }) h0 h1 rfl
        (by rw [hstep]; exact hd), hstep]
      simp [useDescriptor]

/-- Where the descriptors of a walk are the same, the walk is. -/
theorem walkLoop_samePlaces (limit fuel : Nat)
    (h : SamePlaces (trail r error fc limit fuel w) w.memory m') :
    trail r error fc limit fuel { w with memory := m' } = trail r error fc limit fuel w ∧
      walkLoop r error fc true false limit fuel { w with memory := m' } =
        { walkLoop r error fc true false limit fuel w with memory := m' } := by
  induction fuel generalizing w with
  | zero => exact ⟨rfl, rfl⟩
  | succ fuel ih =>
    rw [trail] at h
    obtain ⟨hplaces, hstep⟩ := walkStep_samePlaces fun p hp => h p (List.mem_append_left _ hp)
    rw [trail, trail, walkLoop_succ, walkLoop_succ, hplaces, hstep]
    have hstops : ∀ v : Walk, Walk.stops limit { v with memory := m' } = v.stops limit := fun _ => rfl
    rw [hstops]
    by_cases hstop : (walkStep r error fc true false w).stops limit = true
    · simp only [if_pos hstop]
      exact ⟨trivial, trivial⟩
    · simp only [if_neg hstop] at h ⊢
      have hmemory : (walkStep r error fc true false w).memory = w.memory := walkStep_memory w
      obtain ⟨htrail, hloop⟩ := ih fun p hp => by
        rw [hmemory]
        exact h p (List.mem_append_right _ hp)
      rw [htrail, hloop]
      exact ⟨rfl, rfl⟩

end

/-- Memory is written, but no word of a descriptor. -/
def TablesKept (s : M68kMmu) (m' : Memory) : Prop :=
  ∀ p, visited s p → ∀ x ∈ p.words, read32 m' x = read32 s.memory x

section
variable {s : M68kMmu} {m' : Memory}

theorem TablesKept.walk (h : TablesKept s m') (logical fc : UInt32) (rw : Bool) :
    freshWalk { s with memory := m' } logical fc rw = freshWalk s logical fc rw := by
  have hloop := (walkLoop_samePlaces (w := Walk.start s.regs s.memory 0 logical fc
    { physicalAddress := logical }) 7 7 fun p hp => h p ⟨logical, fc, hp⟩).2
  unfold freshWalk pmmuWalkTables
  rw [walkLoop_direction rw, walkLoop_direction rw]
  show Walk.finish (walkLoop s.regs s.physicalError fc true false 7 7
    { Walk.start s.regs s.memory 0 logical fc { physicalAddress := logical } with memory := m' })
      rw 7 = _
  rw [hloop]
  rfl

theorem TablesKept.tables (h : TablesKept s m') (hs : ValidTables s) :
    ValidTables { s with memory := m' } := by
  have hvisited : visited { s with memory := m' } = visited s := by
    funext p
    refine propext (exists_congr fun logical => exists_congr fun fc => ?_)
    have htrail := (walkLoop_samePlaces (w := Walk.start s.regs s.memory 0 logical fc
      { physicalAddress := logical }) 7 7 fun p hp => h p ⟨logical, fc, hp⟩).1
    show p ∈ trail s.regs s.physicalError fc 7 7
      { Walk.start s.regs s.memory 0 logical fc { physicalAddress := logical } with memory := m' } ↔ _
    rw [htrail]
  exact ⟨hs.kind, hs.tc, hvisited ▸ hs.unshared⟩

end

/-! ## Runs of the 68030 -/

/-- What happens while tables and registers stay as they are. -/
inductive Use where
  | translate (logical fc : UInt32) (rw : Bool) (size : Nat) (intent : PmmuIntent)
  | ptest (logical fc : UInt32) (rw : Bool) (limit : Nat)
  | flush (modes operandFc : UInt32) (operand : Option UInt32)
  | store (memory : Memory)
  | report (tmpSr : UInt16) (faultInfo : FaultInfo)

def useStep (s : M68kMmu) : Use → M68kMmu
  | .translate logical fc rw size intent => (pmmuTranslate s logical fc rw size intent 7).1
  | .ptest logical fc rw limit => (pmmuTranslate s logical fc rw 4 .ptest limit).1
  | .flush modes operandFc operand => pmmuAtcFlushModes s modes operandFc operand
  | .store memory => { s with memory := memory }
  | .report tmpSr faultInfo => { s with tmpSr := tmpSr, faultInfo := faultInfo }

/-- Writes leave the tables alone. -/
def UseKeeps (s : M68kMmu) : Use → Prop
  | .store memory => TablesKept s memory
  | _ => True

/-- An entry that does not fault knows the page that the tables know. -/
def AtcEntry.Finds (entry : AtcEntry) (s : M68kMmu) : Prop :=
  entry.fault = false → ∀ logical fc, entry.serves s.regs logical fc = true →
    entry.physicalPage ||| (logical &&& pageMask s.regs) =
      (freshWalk s logical fc true).physicalAddress

structure Finds (s : M68kMmu) : Prop where
  tables : ValidTables s
  entries : ∀ entry ∈ s.atc, entry.Finds s

section
variable {s s' : M68kMmu} {logical fc : UInt32} {rw : Bool} {intent : PmmuIntent}

/-- What a translation leaves behind. -/
structure Left (s s' : M68kMmu) : Prop where
  regs : s'.regs = s.regs
  physicalError : s'.physicalError = s.physicalError
  marks : MarkedIn (visited s) s.memory s'.memory
  entries : ∀ entry ∈ s'.atc, entry.valid = true → entry ∈ s.atc ∨
    ∃ logical fc t, entry = newEntry s.regs logical t.physicalAddress fc t ∧
      ∀ b, SamePage (pmmuPageShift s.regs) logical b →
        SameResult s.regs logical b t (freshWalk s b fc true)

theorem Finds.left (h : Finds s) (hl : Left s s') : Finds s' where
  tables := h.tables.marked hl.regs hl.physicalError hl.marks
  entries entry hmem := by
    intro hfault b fc hserves
    obtain ⟨hn, hn'⟩ := h.tables.bounds
    have hwalk := freshWalk_marked h.tables hl.regs hl.physicalError hl.marks b fc true
    rw [hwalk.physicalAddress]
    rw [hl.regs] at hserves ⊢
    rcases hl.entries entry hmem (AtcEntry.serves_valid hserves) with
      hold | ⟨logical, fc', t, rfl, ht⟩
    · exact h.entries entry hold hfault b fc hserves
    · simp only [newEntry, AtcEntry.serves, Bool.and_eq_true, beq_iff_eq] at hserves
      obtain ⟨⟨-, hfc⟩, hpage⟩ := hserves
      have hres := ht b ((frame_inj hn hn').1 hpage)
      rw [freshWalk_fc hfc.symm]
      show t.physicalAddress &&& ~~~lowMask (pmmuPageShift s.regs) |||
        (b &&& lowMask (pmmuPageShift s.regs)) = _
      rw [(frame_inj hn hn').2 hres.page, ← (and_lowMask_inj hn hn').2 hres.offset',
        frame_or_offset]

theorem atcScan_left (r : Registers) (logical fc : UInt32) (rw ptest : Bool)
    (atc : List AtcEntry) : ∀ entry ∈ (atcScan r logical fc rw ptest atc).1,
      entry.valid = true → entry ∈ atc := by
  induction atc with
  | nil => simp [atcScan]
  | cons e entries ih =>
    intro entry hmem hv
    unfold atcScan at hmem
    split_ifs at hmem
    · rcases List.mem_cons.1 hmem with rfl | hmem
      · exact List.mem_cons_self ..
      · exact List.mem_cons_of_mem _ (ih entry hmem hv)
    · rcases List.mem_cons.1 hmem with rfl | hmem
      · cases hv
      · exact List.mem_cons_of_mem _ (ih entry hmem hv)
    · exact hmem

/-- A lookup drops entries at most. -/
structure LookedUp (s s' : M68kMmu) : Prop where
  regs : s'.regs = s.regs
  physicalError : s'.physicalError = s.physicalError
  memory : s'.memory = s.memory
  tmpSr : s'.tmpSr = s.tmpSr
  atc : ∀ entry ∈ s'.atc, entry.valid = true → entry ∈ s.atc

theorem pmmuAtcLookup_spec (s : M68kMmu) (logical fc : UInt32) (rw ptest : Bool)
    (result : TranslationResult) :
    ∃ s' result' hit, pmmuAtcLookup s logical fc rw ptest result = (s', result', hit) ∧
      LookedUp s s' ∧ (ptest = false → hit = false → result' = result) := by
  have hatc := atcScan_left s.regs logical fc rw ptest s.atc
  unfold pmmuAtcLookup
  dsimp only
  cases (atcScan s.regs logical fc rw ptest s.atc).2 with
  | none => exact ⟨_, _, _, rfl, ⟨rfl, rfl, rfl, rfl, hatc⟩, fun hp _ => by rw [hp]; rfl⟩
  | some entry => exact ⟨_, _, _, rfl, ⟨rfl, rfl, rfl, rfl, hatc⟩, nofun⟩

theorem Left.recordFault (h : Left s s') (logical fc : UInt32) (rw : Bool) (size : Nat)
    (intent : PmmuIntent) (result : TranslationResult) :
    Left s (recordFault s' logical fc rw size intent result) := by
  obtain ⟨hr, he, hm, hatc⟩ := recordFault_tables s' logical fc rw size intent result
  exact ⟨hr.trans h.regs, he.trans h.physicalError, hm ▸ h.marks, hatc ▸ h.entries⟩

/-- A walk with seven levels, and what the cache keeps of it. -/
theorem Left.walk (hs : ValidTables s) (hr : s'.regs = s.regs)
    (he : s'.physicalError = s.physicalError) (hm : s'.memory = s.memory) (htmp : s'.tmpSr = 0)
    (hatc : ∀ entry ∈ s'.atc, entry.valid = true → entry ∈ s.atc) (logical fc : UInt32) (rw : Bool)
    (sideEffects : Bool) :
    let t := pmmuWalkTables s' logical fc rw 7 sideEffects { physicalAddress := logical }
    Left s t.1 ∧ Left s (pmmuAtcAdd t.1 logical t.2.physicalAddress fc t.2) := by
  intro t
  have hwalk : ∀ b, SamePage (pmmuPageShift s.regs) logical b →
      SameResult s.regs logical b t.2 (freshWalk s b fc true) ∧
        MarkedIn (visited s) s.memory t.1.memory := fun b hab =>
    walk_alike s' hs hr he htmp (hm ▸ .refl _ _) hab
  have hleft : Left s t.1 :=
    ⟨hr, he, (hwalk logical (.refl _ _)).2, fun entry hmem hv => .inl (hatc entry hmem hv)⟩
  obtain ⟨hr', he', hm'⟩ := pmmuAtcAdd_tables t.1 logical t.2.physicalAddress fc t.2
  refine ⟨hleft, hr'.trans hleft.regs, he'.trans hleft.physicalError, hm' ▸ hleft.marks, ?_⟩
  intro entry hmem hv
  rcases mem_pmmuAtcAdd hmem with hold | rfl
  · exact hleft.entries entry hold hv
  · exact .inr ⟨logical, fc, t.2, by rw [hleft.regs], fun b hab => (hwalk b hab).1⟩

/-- No entry is new, and nothing is marked. -/
theorem Left.kept (hr : s'.regs = s.regs) (he : s'.physicalError = s.physicalError)
    (hm : s'.memory = s.memory)
    (hatc : ∀ entry ∈ s'.atc, entry.valid = true → entry ∈ s.atc) : Left s s' :=
  ⟨hr, he, hm ▸ .refl _ _, fun entry hmem hv => .inl (hatc entry hmem hv)⟩

/-- A translation that looks up the cache first. -/
theorem lookup_left (hs : ValidTables s) (hintent : intent = .normal ∨ intent = .probe)
    (ht : transparent s.regs logical fc rw = false) (size : Nat) :
    Left s (pmmuTranslate s logical fc rw size intent 7).1 := by
  obtain ⟨s₁, result, hit, hlookup, hl, hmiss⟩ := pmmuAtcLookup_spec
    { s with lastLogicalAddr := logical, tmpSr := 0 } logical fc rw false
    { physicalAddress := logical }
  have hptest : ¬ (intent = .ptest ∧ 7 = 0) := by simp
  have hadd : intent = .normal ∨ intent = .pload ∨ intent = .probe := hintent.imp_right .inr
  unfold pmmuTranslate
  rw [if_neg hs.kind]
  dsimp only
  rw [ht, if_neg Bool.false_ne_true, if_neg hptest, if_pos hintent, hlookup]
  cases hit with
  | true =>
    have hleft : Left s s₁ := .kept hl.regs hl.physicalError hl.memory hl.atc
    exact hleft.recordFault _ _ _ _ _ _
  | false =>
    obtain rfl := hmiss rfl rfl
    dsimp only
    rw [if_neg Bool.false_ne_true, if_pos hadd]
    have hwalk := Left.walk hs hl.regs hl.physicalError hl.memory hl.tmpSr hl.atc logical fc rw
      (intent == .normal || intent == .pload)
    exact hwalk.2.recordFault _ _ _ _ _ _

theorem translate_left (hs : ValidTables s) (size : Nat) :
    Left s (pmmuTranslate s logical fc rw size intent 7).1 := by
  cases ht : transparent s.regs logical fc rw with
  | true =>
    unfold pmmuTranslate
    rw [if_neg hs.kind]
    dsimp only
    rw [ht, if_pos rfl]
    exact .kept rfl rfl rfl fun entry hmem _ => hmem
  | false =>
    by_cases hintent : intent = .normal ∨ intent = .probe
    · exact lookup_left hs hintent ht size
    · have hptest : ¬ (intent = .ptest ∧ 7 = 0) := by simp
      unfold pmmuTranslate
      rw [if_neg hs.kind]
      dsimp only
      rw [ht, if_neg Bool.false_ne_true, if_neg hptest, if_neg hintent]
      dsimp only
      rw [if_neg Bool.false_ne_true]
      obtain ⟨hleft, hadd⟩ := @Left.walk s { s with lastLogicalAddr := logical, tmpSr := 0 } hs rfl
        rfl rfl rfl (fun entry hmem _ => hmem) logical fc rw (intent == .normal || intent == .pload)
      split_ifs
      · exact hadd.recordFault _ _ _ _ _ _
      · exact hleft.recordFault _ _ _ _ _ _

theorem ptest_left (hs : ValidTables s) (limit : Nat) :
    Left s (pmmuTranslate s logical fc rw 4 .ptest limit).1 := by
  unfold pmmuTranslate
  rw [if_neg hs.kind]
  dsimp only
  cases transparent s.regs logical fc rw with
  | true =>
    rw [if_pos rfl]
    exact .kept rfl rfl rfl fun entry hmem _ => hmem
  | false =>
    rw [if_neg Bool.false_ne_true]
    by_cases hlimit : limit = 0
    · obtain ⟨s₁, result, hit, hlookup, hl, -⟩ := pmmuAtcLookup_spec
        { s with lastLogicalAddr := logical, tmpSr := 0 } logical fc rw true
        { physicalAddress := logical }
      rw [if_pos ⟨rfl, hlimit⟩, hlookup]
      exact .kept hl.regs hl.physicalError hl.memory hl.atc
    · obtain ⟨tmpSr, hwalk⟩ := pmmuWalkTables_debug
        { s with lastLogicalAddr := logical, tmpSr := 0 } logical fc rw limit
        { physicalAddress := logical }
      rw [if_neg fun h => hlimit h.2]
      show Left s (recordFault (pmmuWalkTables { s with lastLogicalAddr := logical, tmpSr := 0 }
        logical fc rw limit false { physicalAddress := logical }).1 _ _ _ _ _ _)
      rw [hwalk]
      refine Left.recordFault ?_ _ _ _ _ _ _
      exact .kept rfl rfl rfl fun entry hmem _ => hmem

theorem useStep_finds (use : Use) (hkeeps : UseKeeps s use) (h : Finds s) :
    Finds (useStep s use) := by
  cases use with
  | translate logical fc rw size intent => exact h.left (translate_left h.tables size)
  | ptest logical fc rw limit => exact h.left (ptest_left h.tables limit)
  | flush modes operandFc operand =>
    obtain ⟨hr, he, hm⟩ : (pmmuAtcFlushModes s modes operandFc operand).regs = s.regs ∧
        (pmmuAtcFlushModes s modes operandFc operand).physicalError = s.physicalError ∧
        (pmmuAtcFlushModes s modes operandFc operand).memory = s.memory := by
      unfold pmmuAtcFlushModes
      dsimp only
      split_ifs <;> exact ⟨rfl, rfl, rfl⟩
    exact h.left (.kept hr he hm fun entry hmem hv => pmmuAtcFlushModes_left hmem hv)
  | store memory =>
    refine ⟨hkeeps.tables h.tables, fun entry hmem hfault logical fc hserves => ?_⟩
    rw [show useStep s (.store memory) = { s with memory := memory } from rfl, hkeeps.walk]
    exact h.entries entry hmem hfault logical fc hserves
  | report tmpSr faultInfo => exact h.left (.kept rfl rfl rfl fun entry hmem _ => hmem)

theorem flushed_finds (hs : ValidTables s) : Finds (pmmuAtcFlush s) where
  tables := ⟨hs.kind, hs.tc, hs.unshared⟩
  entries entry hmem := by
    intro _ logical fc hserves
    obtain ⟨e, -, rfl⟩ := List.mem_map.1 hmem
    cases AtcEntry.serves_valid hserves

/-- The debugger walks through the tables. -/
theorem debug_freshWalk (busError : ρ → ρ) (c : M68kCpu ρ) (hk : c.mmu.regs.kind ≠ .m68040)
    (ht : transparent c.mmu.regs logical fc true = false) :
    (c.debugTranslateAddr busError logical fc).2 = (freshWalk c.mmu logical fc true).physicalAddress := by
  unfold M68kCpu.debugTranslateAddr M68kCpu.translate pmmuTranslate
  rw [if_neg hk]
  dsimp only
  rw [ht, if_neg Bool.false_ne_true, if_neg (by simp), if_neg (by simp)]
  rfl

/-- A read that does not fault uses the address that the debugger finds. -/
theorem Finds.read (busError : ρ → ρ) (c : M68kCpu ρ) (h : Finds c.mmu) (size : Nat)
    (hread : (translateAccess c.mmu logical fc true size).2.fault = false) :
    (translateAccess c.mmu logical fc true size).2.physicalAddress =
      (c.debugTranslateAddr busError logical fc).2 := by
  cases ht : transparent c.mmu.regs logical fc true with
  | true =>
    rw [translateAccess_transparent h.tables.kind ht]
    unfold M68kCpu.debugTranslateAddr M68kCpu.translate pmmuTranslate
    rw [if_neg h.tables.kind]
    dsimp only
    rw [ht, if_pos rfl]
  | false =>
    rw [debug_freshWalk busError c h.tables.kind ht]
    cases hscan : (atcScan c.mmu.regs logical fc true false c.mmu.atc).2 with
    | some entry =>
      obtain ⟨hmem, hserves⟩ := (atcScan_scanned c.mmu.regs logical fc true c.mmu.atc).hit entry hscan
      rw [translateAccess_hit h.tables.kind ht hscan] at hread ⊢
      have hfault : entry.fault = false := by
        simpa [AtcEntry.answer] using hread
      exact h.entries entry hmem hfault logical fc hserves
    | none =>
      rw [translateAccess_miss h.tables.kind ht hscan]
      have hwalk : SameResult c.mmu.regs logical logical
          (pmmuWalkTables (walkStart c.mmu logical fc true) logical fc true 7 true
            { physicalAddress := logical }).2 (freshWalk c.mmu logical fc true) :=
        (walk_alike (walkStart c.mmu logical fc true) h.tables rfl rfl rfl (.refl _ _)
          (.refl _ logical)).1
      exact (hwalk.agree h.tables.bounds.1 h.tables.bounds.2 rfl rfl).physicalAddress

/-- Translation is enabled, nothing has changed tables and registers since the cache was flushed,
    and no word of the tables is part of two descriptors. -/
inductive Settled (s : M68kMmu) (logical fc : UInt32) : Prop where
  | m68030 (s₀ : M68kMmu) (uses : List Use) (htables : ValidTables s₀)
      (hkeeps : Guarded useStep UseKeeps (pmmuAtcFlush s₀) uses)
      (hrun : s = run useStep (pmmuAtcFlush s₀) uses)
  | m68040 (hkind : s.regs.kind = .m68040) (hapart : Apart040 s logical fc)

theorem settled_read (busError : ρ → ρ) (c : M68kCpu ρ) (h : Settled c.mmu logical fc)
    (size : Nat) (hread : (translateAccess c.mmu logical fc true size).2.fault = false) :
    (translateAccess c.mmu logical fc true size).2.physicalAddress =
      (c.debugTranslateAddr busError logical fc).2 := by
  cases h with
  | m68030 s₀ uses htables hkeeps hrun =>
    have hfinds : Finds c.mmu := by
      rw [hrun]
      exact guarded_run_inv (fun _ use hkeeps h => useStep_finds use hkeeps h)
        (flushed_finds htables) hkeeps
    exact hfinds.read busError c size hread
  | m68040 hkind hapart =>
    have hnormal : (translateAccess c.mmu logical fc true size).2 =
        (pmmuTranslate040 c.mmu logical fc true true).2 := by
      unfold translateAccess pmmuTranslate
      rw [if_pos hkind]
      rfl
    have hdebug : (c.debugTranslateAddr busError logical fc).2 =
        (pmmuTranslate040 c.mmu logical fc true false).2.physicalAddress := by
      unfold M68kCpu.debugTranslateAddr M68kCpu.translate pmmuTranslate
      rw [if_pos hkind]
      rfl
    rw [hnormal] at hread ⊢
    rw [hdebug]
    exact read_debug_040 hapart hread

/-- The debugger changes nothing, and finds the address that a read uses. -/
theorem debug_observes (busError : ρ → ρ) (c : M68kCpu ρ) (logical fc : UInt32) :
    (c.debugTranslateAddr busError logical fc).1 = c ∧
      (Settled c.mmu logical fc → translates c.mmu.regs = true → ∀ size physical,
        (accessAddress c.mmu logical fc true size).2 = some physical →
          (c.debugTranslateAddr busError logical fc).2 = physical) := by
  refine ⟨debugTranslateAddr_state busError c logical fc, ?_⟩
  intro hsettled htranslates size physical hread
  unfold accessAddress at hread
  rw [if_pos htranslates] at hread
  dsimp only at hread
  split_ifs at hread with hfault
  rw [← settled_read busError c hsettled size (by simpa using hfault)]
  exact Option.some.inj hread

end

/-- A table of the 68040 whose entries are marked by the walk through them. -/
def sharedTables040 : M68kMmu :=
  { regs := { kind := .m68040, pmmuEnabled := true, srpAptr := 0x1000 }
    memory := write32 (write32 (write32 (fun _ => 0) 0x1000 0x2002) 0x2000 0x1002) 0x2008 0x5003 }

/-- A table of the 68030 that is its own second level. -/
def sharedTables030 : M68kMmu :=
  { regs := { pmmuEnabled := true, tc := 0x80fd2200, crpLimit := 2, crpAptr := 0x1000 }
    memory := write32 (write32 (fun _ => 0) 0x1000 0x1002) 0x1008 0x00500001 }

def debugger (s : M68kMmu) : M68kCpu Unit := ⟨s, false, ()⟩

/-- The read of a page leaves the debugger at its address. -/
theorem debug_observes_small :
    ((debugger (run useStep (pmmuAtcFlush smallTables)
      [.translate 0x10 5 true 4 .normal])).debugTranslateAddr id 0x14 5).2 = 0x00500014 ∧
    ((debugger { sharedTables040 with
      memory := write32 (write32 (write32 (fun _ => 0) 0x1000 0x2002) 0x2000 0x3002) 0x3000
        0x5003 }).debugTranslateAddr id 0 5).2 = 0x5000 :=
  ⟨(debug_observes id (debugger (run useStep (pmmuAtcFlush smallTables)
      [.translate 0x10 5 true 4 .normal])) 0x14 5).2
      (.m68030 smallTables [.translate 0x10 5 true 4 .normal] validTables_small ⟨trivial, trivial⟩
        rfl) rfl 4 _ (by decide +kernel),
    (debug_observes id (debugger { sharedTables040 with
      memory := write32 (write32 (write32 (fun _ => 0) 0x1000 0x2002) 0x2000 0x3002) 0x3000
        0x5003 }) 0 5).2
      (.m68040 rfl ⟨by decide +kernel, by decide +kernel, by decide +kernel, by decide +kernel,
        by decide +kernel⟩) rfl 4 _ (by decide +kernel)⟩

/-- The marks of a read change where tables lead that share words; and the debugger walks tables
    that are not enabled. -/
theorem debug_elsewhere :
    ((accessAddress (pmmuAtcFlush sharedTables040) 0 5 true 4).2 = some 0x5000 ∧
      ((debugger (pmmuAtcFlush sharedTables040)).debugTranslateAddr id 0 5).2 ≠ 0x5000) ∧
    ((accessAddress (pmmuAtcFlush sharedTables030) 0 5 true 4).2 = some 0x00500000 ∧
      ((debugger (pmmuAtcFlush sharedTables030)).debugTranslateAddr id 0 5).2 ≠ 0x00500000) ∧
    ((accessAddress (pmmuAtcFlush { regs := { crpLimit := 1, crpAptr := 0x1000 } }) 0 5 true 4).2 =
        some 0 ∧
      ((debugger (pmmuAtcFlush
        { regs := { crpLimit := 1, crpAptr := 0x1000 } })).debugTranslateAddr id 0 5).2 ≠ 0) := by
  decide +kernel

end CuteMac.Cpu

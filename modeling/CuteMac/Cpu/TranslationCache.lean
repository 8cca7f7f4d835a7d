/-
  The translation cache of the 68030 agrees with the tables.

  * `Change`, `Op`, `step`: accesses, and what software does between them;
  * `Covered`: the entries that are left serve pages that are translated as before;
  * `RefusedMiss`: a write that only write protection refuses, and that the cache
    knows nothing of;
  * `AtcEntry.Agrees`, `Inv`: the entries say what the tables say;
  * `run_agrees`: without such writes, every access is translated as the tables say.
-/
import CuteMac.Cpu.TranslationTables
import CuteMac.Lib.Machine

namespace CuteMac.Cpu

open ByteMemory Pages Machine

/-! ## Runs -/

/-- Registers are loaded, memory is written, entries are flushed. -/
inductive Change where
  | registers (r : Registers)
  | memory (m : Memory)
  | flush (modes operandFc : UInt32) (operand : Option UInt32)

def M68kMmu.change (s : M68kMmu) : Change → M68kMmu
  | .registers r => { s with regs := r }
  | .memory m => { s with memory := m }
  | .flush modes operandFc operand => pmmuAtcFlushModes s modes operandFc operand

inductive Op where
  | access (logical fc : UInt32) (rw : Bool) (size : Nat)
  | software (changes : List Change)

def step (s : M68kMmu) : Op → M68kMmu
  | .access logical fc rw size => (translateAccess s logical fc rw size).1
  | .software changes => changes.foldl M68kMmu.change s

/-- The same address, and the same decision. -/
structure Agree (t u : TranslationResult) : Prop where
  physicalAddress : t.physicalAddress = u.physicalAddress
  fault : t.fault = u.fault

/-- An access is translated as a walk through the tables translates it, unless it bypasses
    them. -/
def StepAgrees (s : M68kMmu) : Op → Prop
  | .access logical fc rw size =>
    Agree (translateAccess s logical fc rw size).2
      (if transparent s.regs logical fc rw then { physicalAddress := logical }
      else freshWalk s logical fc rw)
  | .software _ => True

/-- Entries that are left over by changes serve pages of the same size, which are translated as
    before. -/
def Covered (s s' : M68kMmu) : Prop :=
  ∀ entry ∈ s'.atc, entry.valid = true → pmmuPageShift s'.regs = pmmuPageShift s.regs ∧
    ∀ logical fc rw, entry.serves s'.regs logical fc = true →
      Agree (freshWalk s' logical fc rw) (freshWalk s logical fc rw)

/-- A write to a page without an entry, which the tables refuse although they allow to read. -/
def RefusedMiss (s : M68kMmu) (logical fc : UInt32) : Prop :=
  (∀ entry ∈ s.atc, entry.serves s.regs logical fc = false) ∧
    (freshWalk s logical fc false).fault = true ∧ (freshWalk s logical fc true).fault = false

instance (s : M68kMmu) (logical fc : UInt32) : Decidable (RefusedMiss s logical fc) :=
  inferInstanceAs (Decidable (_ ∧ _ ∧ _))

/-- Software flushes what it changes, and no write is refused in that way. -/
def Legal (s : M68kMmu) : Op → Prop
  | .access logical fc rw _ =>
    transparent s.regs logical fc rw = true ∨ rw = true ∨ ¬ RefusedMiss s logical fc
  | .software changes =>
    Covered s (changes.foldl M68kMmu.change s) ∧
      ValidTables (changes.foldl M68kMmu.change s)

/-! ## Walks -/

section
variable {s s' : M68kMmu} {a b fc fc' : UInt32} {rw : Bool}

theorem fc_and_four (h : fc' &&& 7 = fc &&& 7) : fc' &&& 4 = fc &&& 4 := by
  have h7 : ∀ c : UInt32, c &&& 4 = (c &&& 7) &&& 4 := fun c => by rw [UInt32.and_assoc]; rfl
  rw [h7 fc', h7 fc, h]

/-- Only three bits of a function code count. -/
theorem freshWalk_fc (h : fc' &&& 7 = fc &&& 7) (s : M68kMmu) (logical : UInt32) (rw : Bool) :
    freshWalk s logical fc' rw = freshWalk s logical fc rw := by
  have h4 := fc_and_four h
  have hstep : ∀ r error w, walkStep r error fc' rw false w = walkStep r error fc rw false w := by
    intro r error w
    simp only [walkStep, walkIndex, useDescriptor, pmmuStatusFromDescriptor, h, h4]
  have hloop : ∀ r error fuel w,
      walkLoop r error fc' rw false 7 fuel w = walkLoop r error fc rw false 7 fuel w := by
    intro r error fuel
    induction fuel with
    | zero => exact fun _ => rfl
    | succ fuel ih =>
      intro w
      rw [walkLoop_succ, walkLoop_succ, hstep, ih]
  have hstart : ∀ r m t result,
      Walk.start r m t logical fc' result = Walk.start r m t logical fc result := by
    intro r m t result
    simp only [Walk.start, rootOf, h4]
  simp only [freshWalk, pmmuWalkTables, hloop, hstart]

theorem freshWalk_status (s : M68kMmu) (logical fc : UInt32) (rw : Bool) :
    (freshWalk s logical fc rw).status = (freshWalk s logical fc true).status := by
  simp only [freshWalk, pmmuWalkTables, walkLoop_direction rw]
  rfl

theorem freshWalk_fault (s : M68kMmu) (logical fc : UInt32) (rw : Bool) :
    (freshWalk s logical fc rw).fault = (hardFault (freshWalk s logical fc rw).status ||
      (!rw && (freshWalk s logical fc rw).status &&& srWriteProtect != 0)) := rfl

/-- Two results for one address agree. -/
theorem SameResult.agree {r : Registers} {t u : TranslationResult} (h : SameResult r a a t u)
    (hn : 0 < (pmmuPageShift r).toNat) (hn' : (pmmuPageShift r).toNat < 32)
    (ht : t.fault = (hardFault t.status || (!rw && t.status &&& srWriteProtect != 0)))
    (hu : u.fault = (hardFault u.status || (!rw && u.status &&& srWriteProtect != 0))) :
    Agree t u := by
  constructor
  · rw [← frame_or_offset t.physicalAddress (lowMask (pmmuPageShift r)),
      ← frame_or_offset u.physicalAddress (lowMask (pmmuPageShift r)),
      (frame_inj hn hn').2 h.page, (and_lowMask_inj hn hn').2 (h.offset.trans h.offset'.symm)]
  · rw [ht, hu, h.status.hardFault, h.status.writeProtect]

/-! ## Entries -/

/-- The tables give what the entry gives. -/
def AtcEntry.Agrees (entry : AtcEntry) (s : M68kMmu) : Prop :=
  ∀ logical fc rw, entry.serves s.regs logical fc = true →
    Agree (entry.answer s.regs logical rw { physicalAddress := logical })
      (freshWalk s logical fc rw)

structure Inv (s : M68kMmu) : Prop where
  tables : ValidTables s
  size : ∀ entry ∈ s.atc, entry.valid = true → entry.pageShift = pmmuPageShift s.regs
  agrees : ∀ entry ∈ s.atc, entry.Agrees s

/-- What a lookup of a page finds, and what it leaves. -/
structure Scanned (r : Registers) (logical fc : UInt32) (rw : Bool) (atc : List AtcEntry)
    (result : List AtcEntry × Option AtcEntry) : Prop where
  left : ∀ entry ∈ result.1, entry.valid = true → entry ∈ atc
  hit : ∀ entry, result.2 = some entry → entry ∈ atc ∧ entry.serves r logical fc = true
  miss : result.2 = none → ∀ entry ∈ atc, entry.serves r logical fc = true →
    rw = false ∧ entry.writeProtect = false

theorem atcScan_scanned (r : Registers) (logical fc : UInt32) (rw : Bool) (atc : List AtcEntry) :
    Scanned r logical fc rw atc (atcScan r logical fc rw false atc) := by
  induction atc with
  | nil => exact ⟨by simp [atcScan], by simp [atcScan], by simp⟩
  | cons entry entries ih =>
    unfold atcScan
    by_cases hserves : entry.serves r logical fc = true
    · rw [hserves, Bool.not_true, if_neg Bool.false_ne_true]
      by_cases hdrop : (!false && !rw && !entry.modified && !entry.writeProtect) = true
      · -- a first write cannot use the entry
        rw [if_pos hdrop]
        refine ⟨?_, ?_, ?_⟩
        · intro e he hv
          rcases List.mem_cons.1 he with rfl | he
          · cases hv
          · exact List.mem_cons_of_mem _ (ih.left e he hv)
        · intro e he
          exact ⟨List.mem_cons_of_mem _ (ih.hit e he).1, (ih.hit e he).2⟩
        · intro hn e he hs
          rcases List.mem_cons.1 he with rfl | he
          · simp at hdrop
            exact ⟨hdrop.1.1, hdrop.2⟩
          · exact ih.miss hn e he hs
      · rw [if_neg hdrop]
        refine ⟨fun e he _ => he, ?_, nofun⟩
        rintro e ⟨⟩
        exact ⟨List.mem_cons_self .., hserves⟩
    · have hfalse : entry.serves r logical fc = false := by simpa using hserves
      rw [hfalse, Bool.not_false, if_pos rfl]
      refine ⟨?_, ?_, ?_⟩
      · intro e he hv
        rcases List.mem_cons.1 he with rfl | he
        · exact List.mem_cons_self ..
        · exact List.mem_cons_of_mem _ (ih.left e he hv)
      · intro e he
        exact ⟨List.mem_cons_of_mem _ (ih.hit e he).1, (ih.hit e he).2⟩
      · intro hn e he hs
        rcases List.mem_cons.1 he with rfl | he
        · rw [hfalse] at hs
          cases hs
        · exact ih.miss hn e he hs

/-- Entries of a new cache are old, or the new one. -/
theorem mem_pmmuAtcAdd {logical physical : UInt32} {result : TranslationResult} {entry : AtcEntry}
    (h : entry ∈ (pmmuAtcAdd s logical physical fc result).atc) :
    entry ∈ s.atc ∨ entry = newEntry s.regs logical physical fc result := by
  unfold pmmuAtcAdd at h
  cases hslot : atcSlot s.regs logical fc s.atc with
  | some i =>
    rw [hslot] at h
    exact (List.mem_or_eq_of_mem_set h)
  | none =>
    rw [hslot] at h
    exact (List.mem_or_eq_of_mem_set h)

theorem ValidTables.bounds (hs : ValidTables s) :
    0 < (pmmuPageShift s.regs).toNat ∧ (pmmuPageShift s.regs).toNat < 32 := by
  have hlow := hs.tc.size.low
  have hhigh := hs.tc.size.high
  omega

/-- Marks do not change what the tables say. -/
theorem freshWalk_marked (hs : ValidTables s) (hr : s'.regs = s.regs)
    (he : s'.physicalError = s.physicalError) (hm : MarkedIn (visited s) s.memory s'.memory)
    (a fc : UInt32) (rw : Bool) : Agree (freshWalk s' a fc rw) (freshWalk s a fc rw) := by
  have hwalk : SameResult s.regs a a
      (pmmuWalkTables { s' with tmpSr := 0 } a fc rw 7 false { physicalAddress := a }).2
      (freshWalk s a fc rw) :=
    (walk_alike { s' with tmpSr := 0 } hs hr he rfl hm (SamePage.refl _ a)).1
  exact hwalk.agree hs.bounds.1 hs.bounds.2 rfl rfl

theorem AtcEntry.serves_valid {entry : AtcEntry} {r : Registers}
    (h : entry.serves r a fc = true) : entry.valid = true := by
  unfold AtcEntry.serves at h
  simp only [Bool.and_eq_true] at h
  exact h.1.1.1

/-- Marks, and entries that agree, keep the invariant. -/
theorem Inv.marked (h : Inv s) (hr : s'.regs = s.regs)
    (he : s'.physicalError = s.physicalError) (hm : MarkedIn (visited s) s.memory s'.memory)
    (hentries : ∀ entry ∈ s'.atc, entry.valid = true → entry ∈ s.atc ∨
      (entry.pageShift = pmmuPageShift s.regs ∧ entry.Agrees s')) : Inv s' where
  tables := h.tables.marked hr he hm
  size entry hmem hv := by
    rw [hr]
    rcases hentries entry hmem hv with hold | ⟨hnew, -⟩
    · exact h.size entry hold hv
    · exact hnew
  agrees entry hmem := by
    intro logical fc rw hserves
    rcases hentries entry hmem (AtcEntry.serves_valid hserves) with hold | ⟨-, hnew⟩
    · rw [hr] at hserves ⊢
      have hagree := h.agrees entry hold logical fc rw hserves
      have hwalk := freshWalk_marked h.tables hr he hm logical fc rw
      exact ⟨hagree.physicalAddress.trans hwalk.physicalAddress.symm,
        hagree.fault.trans hwalk.fault.symm⟩
    · exact hnew logical fc rw hserves

/-! ## Accesses -/

theorem recordFault_tables (s : M68kMmu) (logical fc : UInt32) (rw : Bool) (size : Nat)
    (intent : PmmuIntent) (result : TranslationResult) :
    (recordFault s logical fc rw size intent result).regs = s.regs ∧
      (recordFault s logical fc rw size intent result).physicalError = s.physicalError ∧
      (recordFault s logical fc rw size intent result).memory = s.memory ∧
      (recordFault s logical fc rw size intent result).atc = s.atc := by
  unfold recordFault
  split_ifs <;> exact ⟨rfl, rfl, rfl, rfl⟩

theorem pmmuAtcAdd_tables (s : M68kMmu) (logical physical fc : UInt32)
    (result : TranslationResult) :
    (pmmuAtcAdd s logical physical fc result).regs = s.regs ∧
      (pmmuAtcAdd s logical physical fc result).physicalError = s.physicalError ∧
      (pmmuAtcAdd s logical physical fc result).memory = s.memory := by
  unfold pmmuAtcAdd
  cases atcSlot s.regs logical fc s.atc <;> exact ⟨rfl, rfl, rfl⟩

variable {logical : UInt32} {size : Nat}

theorem translateAccess_transparent (hk : s.regs.kind ≠ .m68040)
    (ht : transparent s.regs logical fc rw = true) :
    translateAccess s logical fc rw size =
      ({ s with lastLogicalAddr := logical, tmpSr := 0 },
        { physicalAddress := logical
          status := flag (pmmuMatchTt logical fc s.regs.tt0 rw ||
            pmmuMatchTt logical fc s.regs.tt1 rw) srTransparent
          transparent := true }) := by
  simp only [translateAccess, pmmuTranslate, if_neg hk, ht, if_true]

/-- The state in front of the lookup. -/
def accessStart (s : M68kMmu) (logical : UInt32) : M68kMmu :=
  { s with lastLogicalAddr := logical, tmpSr := 0 }

theorem translateAccess_hit (hk : s.regs.kind ≠ .m68040)
    (ht : transparent s.regs logical fc rw = false) {entry : AtcEntry}
    (hscan : (atcScan s.regs logical fc rw false s.atc).2 = some entry) :
    translateAccess s logical fc rw size =
      (recordFault
        { accessStart s logical with
          atc := (atcScan s.regs logical fc rw false s.atc).1, atcHits := s.atcHits + 1 }
        logical fc rw size .normal (entry.answer s.regs logical rw { physicalAddress := logical }),
        entry.answer s.regs logical rw { physicalAddress := logical }) := by
  simp [translateAccess, pmmuTranslate, hk, ht, pmmuAtcLookup, hscan, accessStart]

/-- The state in front of the walk. -/
def walkStart (s : M68kMmu) (logical fc : UInt32) (rw : Bool) : M68kMmu :=
  { accessStart s logical with
    atc := (atcScan s.regs logical fc rw false s.atc).1, atcMisses := s.atcMisses + 1 }

theorem translateAccess_miss (hk : s.regs.kind ≠ .m68040)
    (ht : transparent s.regs logical fc rw = false)
    (hscan : (atcScan s.regs logical fc rw false s.atc).2 = none) :
    translateAccess s logical fc rw size =
      let w := pmmuWalkTables (walkStart s logical fc rw) logical fc rw 7 true
        { physicalAddress := logical }
      (recordFault (pmmuAtcAdd w.1 logical w.2.physicalAddress fc w.2) logical fc rw size .normal w.2,
        w.2) := by
  simp [translateAccess, pmmuTranslate, hk, ht, pmmuAtcLookup, hscan, accessStart, walkStart]

/-- The entry of a walk holds for its page, and for both directions. -/
theorem newEntry_agrees (hs : ValidTables s) (hr : s'.regs = s.regs)
    (he : s'.physicalError = s.physicalError) (hm : MarkedIn (visited s) s.memory s'.memory)
    {t : TranslationResult}
    (hwalk : ∀ b rw', SamePage (pmmuPageShift s.regs) logical b →
      SameResult s.regs logical b t (freshWalk s b fc rw'))
    (hfault : t.fault = hardFault t.status) :
    (newEntry s.regs logical t.physicalAddress fc t).Agrees s' := by
  obtain ⟨hn, hn'⟩ := hs.bounds
  intro b fc' rw' hserves
  rw [hr] at hserves ⊢
  simp only [newEntry, AtcEntry.serves, Bool.and_eq_true, beq_iff_eq] at hserves
  obtain ⟨⟨-, hfc⟩, hpage⟩ := hserves
  have hsame : SamePage (pmmuPageShift s.regs) logical b := (frame_inj hn hn').1 hpage
  have hres := hwalk b rw' hsame
  have hmarked := freshWalk_marked hs hr he hm b fc rw'
  rw [freshWalk_fc hfc.symm]
  constructor
  · show t.physicalAddress &&& ~~~lowMask (pmmuPageShift s.regs) |||
      (b &&& lowMask (pmmuPageShift s.regs)) = _
    rw [hmarked.physicalAddress, (frame_inj hn hn').2 hres.page,
      ← (and_lowMask_inj hn hn').2 hres.offset', frame_or_offset]
  · show (t.fault || (!rw' && t.status &&& srWriteProtect != 0)) = _
    rw [hmarked.fault, freshWalk_fault, hfault, hres.status.hardFault, hres.status.writeProtect]

theorem hit_agrees (h : Inv s) (ht : transparent s.regs logical fc rw = false) {entry : AtcEntry}
    (hscan : (atcScan s.regs logical fc rw false s.atc).2 = some entry) :
    Inv (translateAccess s logical fc rw size).1 ∧
      Agree (translateAccess s logical fc rw size).2 (freshWalk s logical fc rw) := by
  have hscanned := atcScan_scanned s.regs logical fc rw s.atc
  obtain ⟨hmem, hserves⟩ := hscanned.hit entry hscan
  rw [translateAccess_hit h.tables.kind ht hscan]
  obtain ⟨hr, he, hmemory, hatc⟩ := recordFault_tables
    { accessStart s logical with
      atc := (atcScan s.regs logical fc rw false s.atc).1, atcHits := s.atcHits + 1 }
    logical fc rw size .normal (entry.answer s.regs logical rw { physicalAddress := logical })
  refine ⟨h.marked hr he ?_ ?_, h.agrees entry hmem logical fc rw hserves⟩
  · rw [hmemory]
    exact .refl _ _
  · intro e hmem' hv
    rw [hatc] at hmem'
    exact .inl (hscanned.left e hmem' hv)

/-- A miss that a write protection refuses has an entry, or the direction does not matter. -/
theorem miss_fault (h : Inv s) (hlegal : rw = true ∨ ¬ RefusedMiss s logical fc)
    (hscan : (atcScan s.regs logical fc rw false s.atc).2 = none) :
    (freshWalk s logical fc rw).fault = hardFault (freshWalk s logical fc rw).status := by
  rw [freshWalk_fault]
  cases rw with
  | true => simp
  | false =>
    cases hhard : hardFault (freshWalk s logical fc false).status with
    | true => simp
    | false =>
      cases hwp : (freshWalk s logical fc false).status &&& srWriteProtect != 0 with
      | false => simp
      | true =>
        have hwrite : (freshWalk s logical fc false).fault = true := by
          rw [freshWalk_fault, hhard, hwp]
          rfl
        have hread : (freshWalk s logical fc true).fault = false := by
          rw [freshWalk_fault, ← freshWalk_status s logical fc false, hhard]
          rfl
        have hentry : ∀ entry ∈ s.atc, entry.serves s.regs logical fc = false := by
          intro entry hmem
          cases hserves : entry.serves s.regs logical fc with
          | false => rfl
          | true =>
            -- the entry is write protected, so that the write could use it
            have hmiss := (atcScan_scanned s.regs logical fc false s.atc).miss hscan entry hmem hserves
            have hread' := (h.agrees entry hmem logical fc true hserves).fault
            have hwrite' := (h.agrees entry hmem logical fc false hserves).fault
            rw [hread] at hread'
            rw [hwrite] at hwrite'
            simp [AtcEntry.answer, hmiss.2] at hread' hwrite'
            rw [hread'] at hwrite'
            cases hwrite'
        rcases hlegal with hr | hr
        · cases hr
        · exact absurd ⟨hentry, hwrite, hread⟩ hr

theorem miss_agrees (h : Inv s) (ht : transparent s.regs logical fc rw = false)
    (hlegal : rw = true ∨ ¬ RefusedMiss s logical fc)
    (hscan : (atcScan s.regs logical fc rw false s.atc).2 = none) :
    Inv (translateAccess s logical fc rw size).1 ∧
      Agree (translateAccess s logical fc rw size).2 (freshWalk s logical fc rw) := by
  obtain ⟨hn, hn'⟩ := h.tables.bounds
  have hscanned := atcScan_scanned s.regs logical fc rw s.atc
  rw [translateAccess_miss h.tables.kind ht hscan]
  obtain ⟨w, hw⟩ : ∃ w, w = pmmuWalkTables (walkStart s logical fc rw) logical fc rw 7 true
      { physicalAddress := logical } := ⟨_, rfl⟩
  have hwalk : ∀ b rw', SamePage (pmmuPageShift s.regs) logical b →
      SameResult s.regs logical b w.2 (freshWalk s b fc rw') ∧
        MarkedIn (visited s) s.memory w.1.memory := by
    intro b rw' hab
    rw [hw]
    exact walk_alike (walkStart s logical fc rw) h.tables rfl rfl rfl (.refl _ _) hab
  have hr : w.1.regs = s.regs := by rw [hw]; rfl
  have he : w.1.physicalError = s.physicalError := by rw [hw]; rfl
  have hatc : w.1.atc = (atcScan s.regs logical fc rw false s.atc).1 := by rw [hw]; rfl
  have hfault : w.2.fault = (hardFault w.2.status ||
      (!rw && w.2.status &&& srWriteProtect != 0)) := by rw [hw]; rfl
  rw [← hw]
  obtain ⟨hself, hmarks⟩ := hwalk logical rw (.refl _ _)
  have hagree : Agree w.2 (freshWalk s logical fc rw) := hself.agree hn hn' hfault rfl
  refine ⟨?_, hagree⟩
  obtain ⟨hr', he', hmemory', hatc'⟩ := recordFault_tables
    (pmmuAtcAdd w.1 logical w.2.physicalAddress fc w.2) logical fc rw size .normal w.2
  obtain ⟨hr'', he'', hmemory''⟩ := pmmuAtcAdd_tables w.1 logical w.2.physicalAddress fc w.2
  have hregs := hr'.trans (hr''.trans hr)
  have herror := he'.trans (he''.trans he)
  have hmarked : MarkedIn (visited s) s.memory
      (recordFault (pmmuAtcAdd w.1 logical w.2.physicalAddress fc w.2) logical fc rw size .normal
        w.2).memory := by
    rw [hmemory', hmemory'']
    exact hmarks
  refine h.marked hregs herror hmarked fun entry hmem hv => ?_
  rw [hatc'] at hmem
  rcases mem_pmmuAtcAdd hmem with hold | rfl
  · rw [hatc] at hold
    exact .inl (hscanned.left entry hold hv)
  · rw [hr]
    refine .inr ⟨rfl, newEntry_agrees h.tables hregs herror hmarked (fun b rw' hab =>
      (hwalk b rw' hab).1) ?_⟩
    rw [hagree.fault, hself.status.hardFault]
    exact miss_fault h hlegal hscan

/-! ## Software -/

theorem pmmuAtcFlushModes_left {modes operandFc : UInt32} {operand : Option UInt32}
    {entry : AtcEntry} (h : entry ∈ (pmmuAtcFlushModes s modes operandFc operand).atc)
    (hv : entry.valid = true) : entry ∈ s.atc := by
  unfold pmmuAtcFlushModes at h
  dsimp only at h
  split_ifs at h with hall hoperand
  · obtain ⟨e, -, rfl⟩ := List.mem_map.1 h
    cases hv
  · exact h
  · obtain ⟨e, he, rfl⟩ := List.mem_map.1 h
    split_ifs at hv ⊢
    exact he

theorem change_left {c : Change} {entry : AtcEntry} (h : entry ∈ (s.change c).atc)
    (hv : entry.valid = true) : entry ∈ s.atc := by
  cases c with
  | registers r => exact h
  | memory m => exact h
  | flush modes operandFc operand => exact pmmuAtcFlushModes_left h hv

theorem changes_left {changes : List Change} {entry : AtcEntry}
    (h : entry ∈ (changes.foldl M68kMmu.change s).atc) (hv : entry.valid = true) :
    entry ∈ s.atc := by
  induction changes generalizing s with
  | nil => exact h
  | cons c changes ih => exact change_left (ih h) hv

theorem Inv.covered (h : Inv s) (hc : Covered s s') (ht : ValidTables s')
    (hleft : ∀ entry ∈ s'.atc, entry.valid = true → entry ∈ s.atc) : Inv s' where
  tables := ht
  size entry hmem hv := (h.size entry (hleft entry hmem hv) hv).trans (hc entry hmem hv).1.symm
  agrees entry hmem := by
    intro logical fc rw hserves
    have hv := AtcEntry.serves_valid hserves
    obtain ⟨hsize, hsame⟩ := hc entry hmem hv
    have hwalk := hsame logical fc rw hserves
    have hserves' : entry.serves s.regs logical fc = true := by
      rw [← hserves]
      unfold AtcEntry.serves pageMask
      rw [hsize]
    have hagree := h.agrees entry (hleft entry hmem hv) logical fc rw hserves'
    constructor
    · rw [hwalk.physicalAddress, ← hagree.physicalAddress]
      show _ ||| (logical &&& pageMask s'.regs) = _ ||| (logical &&& pageMask s.regs)
      unfold pageMask
      rw [hsize]
    · exact hagree.fault.trans hwalk.fault.symm

/-! ## Every run -/

theorem step_inv (op : Op) (hlegal : Legal s op) (h : Inv s) :
    Inv (step s op) ∧ StepAgrees s op := by
  cases op with
  | access logical fc rw size =>
    show Inv (translateAccess s logical fc rw size).1 ∧ Agree (translateAccess s logical fc rw size).2
      (if transparent s.regs logical fc rw = true then { physicalAddress := logical }
      else freshWalk s logical fc rw)
    cases ht : transparent s.regs logical fc rw with
    | true =>
      rw [if_pos rfl, translateAccess_transparent h.tables.kind ht]
      exact ⟨h.marked rfl rfl (.refl _ _) fun entry hmem _ => .inl hmem, rfl, rfl⟩
    | false =>
      rw [if_neg Bool.false_ne_true]
      have hlegal' := hlegal.resolve_left (by rw [ht]; exact Bool.false_ne_true)
      cases hscan : (atcScan s.regs logical fc rw false s.atc).2 with
      | some entry => exact hit_agrees h ht hscan
      | none => exact miss_agrees h ht hlegal' hscan
  | software changes =>
    exact ⟨h.covered hlegal.1 hlegal.2 fun _ hmem hv => changes_left hmem hv, trivial⟩

theorem flushed_inv (hs : ValidTables s) : Inv (pmmuAtcFlush s) where
  tables := ⟨hs.kind, hs.tc, hs.unshared⟩
  size entry hmem hv := by
    obtain ⟨e, -, rfl⟩ := List.mem_map.1 hmem
    cases hv
  agrees entry hmem := by
    intro logical fc rw hserves
    have hv := AtcEntry.serves_valid hserves
    obtain ⟨e, -, rfl⟩ := List.mem_map.1 hmem
    cases hv

/-- After a full flush every access is translated as the tables say, as long as software flushes
    what it changes and no write to a page without an entry is refused for its write protection
    alone. -/
theorem run_agrees (s : M68kMmu) (hs : ValidTables s) (ops : List Op)
    (hok : Guarded step Legal (pmmuAtcFlush s) ops) :
    Guarded step StepAgrees (pmmuAtcFlush s) ops :=
  (guarded_run_steps (fun _ op hlegal h => step_inv op hlegal h) (flushed_inv hs) hok).1

end

/-- Pages of 32 KiB behind a table of four entries; the first page is read-only, the others are
    invalid. -/
def smallTables : M68kMmu :=
  { regs := { pmmuEnabled := true, tc := 0x80ff2000, crpLimit := 2, crpAptr := 0x1000 }
    memory := write32 (fun _ => 0) 0x1000 0x00500005 }

theorem validTables_small : ValidTables smallTables := by
  refine ⟨by decide, ⟨by decide, by decide⟩, unshared_final ?_ ?_⟩
  · intro fc
    exact congrArg Prod.fst (if_neg fun h => h.1 rfl)
  · intro x hx
    by_cases h : x = 0x1000
    · subst h
      rw [show smallTables.memory = write32 (fun _ => 0) 0x1000 0x00500005 from rfl,
        read32_write32]
      exact .inr rfl
    · rw [show smallTables.memory = write32 (fun _ => 0) 0x1000 0x00500005 from rfl,
        read32_write32_of_ne _ (by decide) hx h]
      refine .inl ?_
      simp [read32, span_four, compose, dfDtInvalid]

/-- The first access of the page is a read; the write that is refused finds its entry. -/
theorem run_agrees_small :
    Guarded step StepAgrees (pmmuAtcFlush smallTables)
      [.access 0x10 5 true 4, .access 0x14 5 false 4, .access 0x18 5 true 4,
        .access 0x8000 5 false 4, .access 0x8000 5 true 4] := by
  refine run_agrees smallTables validTables_small _ ⟨.inr (.inl rfl), ?_, .inr (.inl rfl), ?_,
    .inr (.inl rfl), trivial⟩
  · exact .inr (.inr (by decide +kernel))
  · exact .inr (.inr (by decide +kernel))

/-- Where the write comes first, its fault is remembered, and the page can no longer be read. -/
theorem refused_write_hides_page :
    ValidTables smallTables ∧
      (freshWalk (step (pmmuAtcFlush smallTables) (.access 0x10 5 false 4)) 0x10 5 true).fault =
        false ∧
      (translateAccess (step (pmmuAtcFlush smallTables) (.access 0x10 5 false 4))
        0x10 5 true 4).2.fault = true ∧
      ¬ Guarded step StepAgrees (pmmuAtcFlush smallTables)
        [.access 0x10 5 false 4, .access 0x10 5 true 4] := by
  have htransparent : transparent (step (pmmuAtcFlush smallTables) (.access 0x10 5 false 4)).regs
      0x10 5 true = false := by decide +kernel
  have hwalk : (freshWalk (step (pmmuAtcFlush smallTables) (.access 0x10 5 false 4))
      0x10 5 true).fault = false := by decide +kernel
  have haccess : (translateAccess (step (pmmuAtcFlush smallTables) (.access 0x10 5 false 4))
      0x10 5 true 4).2.fault = true := by decide +kernel
  refine ⟨validTables_small, hwalk, haccess, fun h => ?_⟩
  have hagree : Agree _ (if _ then _ else _) := h.2.1
  rw [htransparent, if_neg Bool.false_ne_true] at hagree
  have hfault := hagree.fault
  rw [haccess, hwalk] at hfault
  cases hfault

end CuteMac.Cpu

/-
  The Used and Modified bits of the 68030 over runs.

  * `Translation`, `History`: translations, and a log of the accesses among them;
  * `walkTrail`: the descriptors on the walk of an address;
  * `Exact`: the bits say what the log says;
  * `Refreshed`, `Unprotected`: the accesses that the cache serves and the writes
    that walk, where the bits stay exact;
  * `EntrySound`, `Recording`: what the cache knows of the bits;
  * `history_exact`: with such accesses only, the bits are exact in every run.

  An indirect descriptor has no such bits.
-/
import CuteMac.Cpu.DebugTranslate
import CuteMac.Cpu.WalkMarks

namespace CuteMac.Cpu

open ByteMemory Pages Machine

/-! ## Runs of translations -/

/-- A translation of an access, or a probe for one. -/
structure Translation where
  logical : UInt32
  fc : UInt32
  rw : Bool
  size : Nat := 4
  probe : Bool := false

def Translation.intent (t : Translation) : PmmuIntent := if t.probe then .probe else .normal

/-- An access that the tables translate: whether it faulted, and whether it walked through the
    tables. -/
structure Record where
  access : Translation
  fault : Bool
  walked : Bool

structure History where
  mmu : M68kMmu
  log : List Record := []

/-- The entry of the cache that serves a translation. -/
def cached (s : M68kMmu) (t : Translation) : Option AtcEntry :=
  (atcScan s.regs t.logical t.fc t.rw false s.atc).2

def History.step (h : History) (t : Translation) : History :=
  let (mmu, result) := pmmuTranslate h.mmu t.logical t.fc t.rw t.size t.intent 7
  { mmu := mmu
    log :=
      if t.probe || transparent h.mmu.regs t.logical t.fc t.rw then h.log
      else ⟨t, result.fault, (cached h.mmu t).isNone⟩ :: h.log }

/-- The descriptors on the walk of an address. -/
def walkTrail (s : M68kMmu) (logical fc : UInt32) : List Place :=
  trail s.regs s.physicalError fc 7 7
    (Walk.start s.regs s.memory 0 logical fc { physicalAddress := logical })

/-- Valid tables in memory that answers; no page is marked as modified. -/
structure FreshTables (s : M68kMmu) : Prop extends ValidTables s where
  answers : ∀ p, visited s p → ∀ x ∈ p.words, s.physicalError x = false
  unmodified : ∀ p, visited s p → IsPage s.memory p → read32 s.memory p.address &&& dfModified = 0

/-- The descriptors on the walk of every access are used, and the pages are modified that a write
    went through. -/
structure Exact (s : M68kMmu) (h : History) : Prop where
  used : ∀ e ∈ h.log, e.fault = false → ∀ p ∈ walkTrail s e.access.logical e.access.fc,
    p.indirect = false → read32 h.mmu.memory p.address &&& dfUsed ≠ 0
  modified : ∀ p, visited s p → IsPage s.memory p →
    (read32 h.mmu.memory p.address &&& dfModified ≠ 0 ↔
      ∃ e ∈ h.log, e.access.rw = false ∧ e.fault = false ∧
        p ∈ walkTrail s e.access.logical e.access.fc)

/-! ## Where the bits stay exact -/

/-- An entry that lets an access pass serves it after an access to the page has walked. -/
def Refreshed (h : History) (t : Translation) (entry : AtcEntry) : Prop :=
  entry.fault = false → (t.rw = true ∨ entry.writeProtect = false) →
    ∃ e ∈ h.log, e.walked = true ∧
      SamePage (pmmuPageShift h.mmu.regs) e.access.logical t.logical ∧
        e.access.fc &&& 7 = t.fc &&& 7

/-- What the descriptors on a walk refuse is refused by the page descriptor, too. -/
structure Passes (s : M68kMmu) (logical fc : UInt32) : Prop where
  writable : ∀ q ∈ walkTrail s logical fc, q.indirect = false →
    read32 s.memory q.address &&& dfWp = 0
  accessible : fc &&& 4 = 0 → ∀ q ∈ walkTrail s logical fc, q.indirect = false → q.isLong = true →
    read32 s.memory q.address &&& dfSupervisor = 0
  levels : (walkTrail s logical fc).length < 7

/-- A write that walks to a page without a write protection of its own, and not modified yet, finds
    no write protection on its way, nor a supervisor bit against it, in less than seven levels. -/
def Unprotected (s : M68kMmu) (h : History) (t : Translation) : Prop :=
  t.rw = false → ∀ p ∈ walkTrail s t.logical t.fc, IsPage s.memory p →
    read32 s.memory p.address &&& dfWp = 0 → read32 h.mmu.memory p.address &&& dfModified = 0 →
      Passes s t.logical t.fc

/-- The condition on a translation; `s` has the tables as they were. -/
def Records (s : M68kMmu) (h : History) (t : Translation) : Prop :=
  t.probe = false → transparent h.mmu.regs t.logical t.fc t.rw = false →
    (∀ entry, cached h.mmu t = some entry → Refreshed h t entry) ∧
      (cached h.mmu t = none → Unprotected s h t)

/-! ## Walks through the tables -/

section
variable {s s' : M68kMmu} {a b logical fc fc' : UInt32} {rw sideEffects : Bool} {p : Place}

theorem visited_of_mem (h : p ∈ walkTrail s logical fc) : visited s p := ⟨logical, fc, h⟩

theorem FreshTables.trail_answers (hs : FreshTables s) (logical fc : UInt32) :
    Answers s.physicalError (walkTrail s logical fc) :=
  fun p hp => hs.answers p (visited_of_mem hp)

theorem walkTrail_aligned (htc : ValidTc s.regs) (hp : p ∈ walkTrail s logical fc) :
    Aligned p.address :=
  trail_aligned (start_alike fc htc (.refl _ _) s.memory s.memory) (by omega) htc.size hp

theorem visited_aligned (htc : ValidTc s.regs) (hp : visited s p) : Aligned p.address := by
  obtain ⟨logical, fc, hp⟩ := hp
  exact walkTrail_aligned htc hp

/-- The walks of a page visit the same descriptors. -/
theorem walkTrail_samePage (hs : ValidTables s) (hab : SamePage (pmmuPageShift s.regs) a b)
    (fc : UInt32) : walkTrail s a fc = walkTrail s b fc :=
  (start_alike fc hs.tc hab s.memory s.memory).trail (by omega) hs.tc.size hab hs.unshared
    (.refl _ _) rfl fun _ hp => visited_of_mem hp

theorem walkTrail_fc (h : fc' &&& 7 = fc &&& 7) (s : M68kMmu) (logical : UInt32) :
    walkTrail s logical fc' = walkTrail s logical fc := by
  have h4 := fc_and_four h
  have hstep : ∀ w, walkStep s.regs s.physicalError fc' true false w =
      walkStep s.regs s.physicalError fc true false w := by
    intro w
    simp only [walkStep, walkIndex, useDescriptor, pmmuStatusFromDescriptor, h, h4]
  have hplaces : ∀ w, stepPlaces s.regs s.physicalError fc' w =
      stepPlaces s.regs s.physicalError fc w := by
    intro w
    simp only [stepPlaces, descriptorAddress, walkIndex, h]
  have htrail : ∀ fuel w, trail s.regs s.physicalError fc' 7 fuel w =
      trail s.regs s.physicalError fc 7 fuel w := by
    intro fuel
    induction fuel with
    | zero => exact fun _ => rfl
    | succ fuel ih =>
      intro w
      rw [trail, trail, hstep, hplaces, ih]
  have hstart : Walk.start s.regs s.memory 0 logical fc' { physicalAddress := logical } =
      Walk.start s.regs s.memory 0 logical fc { physicalAddress := logical } := by
    simp only [Walk.start, rootOf, h4]
  rw [walkTrail, walkTrail, hstart, htrail]

/-- An entry serves the addresses that share its walk. -/
theorem newEntry_serves {physical : UInt32} {t : TranslationResult} (hs : ValidTables s)
    (h : (newEntry s.regs logical physical fc t).serves s.regs b fc' = true) :
    SamePage (pmmuPageShift s.regs) logical b ∧ fc &&& 7 = fc' &&& 7 := by
  simp only [newEntry, AtcEntry.serves, Bool.and_eq_true, beq_iff_eq] at h
  exact ⟨(frame_inj hs.bounds.1 hs.bounds.2).1 h.2, h.1.2⟩

theorem walkTrail_congr (hs : ValidTables s) (hab : SamePage (pmmuPageShift s.regs) a b)
    (hfc : fc &&& 7 = fc' &&& 7) : walkTrail s a fc = walkTrail s b fc' :=
  (walkTrail_samePage hs hab fc).trans (walkTrail_fc hfc s b)

end

/-! ## Faults of walks -/

section
variable {s s' : M68kMmu} {m : Memory} {a b logical fc fc' : UInt32} {rw sideEffects : Bool}
  {p q : Place} {places : List Place} {status mask : UInt16}

theorem placeStatus_and (m : Memory) (fc : UInt32) (status mask : UInt16) (q : Place) :
    placeStatus m fc status q &&& mask = status &&& mask ||| placeStatus m fc 0 q &&& mask := by
  unfold placeStatus
  split_ifs
  · rw [UInt16.zero_and, UInt16.or_zero]
  · rw [statusFromDescriptor_and, statusFromDescriptor_and, UInt16.zero_and, UInt16.zero_or,
      UInt16.or_assoc, UInt16.or_assoc, UInt16.or_assoc]

theorem statusAll_and_eq_zero : statusAll m fc status places &&& mask = 0 ↔
    status &&& mask = 0 ∧ ∀ q ∈ places, placeStatus m fc 0 q &&& mask = 0 := by
  induction places generalizing status with
  | nil => simp [statusAll]
  | cons q places ih =>
    rw [statusAll, List.foldl_cons, ← statusAll, ih, placeStatus_and, UInt16.or_eq_zero_iff,
      List.forall_mem_cons, and_assoc]

/-- A walk through a protected descriptor says so. -/
theorem placeStatus_protected (hind : q.indirect = false)
    (htype : read32 m q.address &&& dfDt ≠ dfDtInvalid) :
    placeStatus m fc 0 q &&& srWriteProtect = 0 ↔ read32 m q.address &&& dfWp = 0 := by
  rw [placeStatus, hind, if_neg Bool.false_ne_true, statusFromDescriptor_and,
    flag_and_eq_zero (show srModified &&& srWriteProtect = 0 from rfl),
    flag_and_eq_zero (show srSupervisorOnly &&& srWriteProtect = 0 from rfl)]
  by_cases hwp : read32 m q.address &&& dfWp = 0
  · simp [hwp, flag]
  · simp [hwp, htype, flag, srWriteProtect]

/-- The only fault that a valid descriptor adds is that of a supervisor bit. -/
theorem placeStatus_accessible (h : fc &&& 4 = 0 → q.indirect = false → q.isLong = true →
    read32 m q.address &&& dfSupervisor = 0) :
    placeStatus m fc 0 q &&& (srBusError ||| srInvalid ||| srSupervisorOnly) = 0 := by
  unfold placeStatus
  split_ifs with hind
  · exact UInt16.zero_and
  rw [statusFromDescriptor_and, UInt16.zero_and, UInt16.zero_or, flag_and_eq_zero rfl,
    flag_and_eq_zero rfl, UInt16.zero_or, UInt16.zero_or]
  rw [Bool.not_eq_true] at hind
  by_cases hset : (q.isLong && fc &&& 4 == 0 && read32 m q.address &&& dfSupervisor != 0) = true
  · simp only [Bool.and_eq_true, beq_iff_eq, bne_iff_ne] at hset
    exact absurd (h hset.1.2 hind hset.1.1) hset.2
  · rw [Bool.not_eq_true] at hset
    rw [hset]
    exact UInt16.zero_and

theorem finish_and (w : Walk) (rw : Bool) (h : (0xfff0 : UInt16) &&& mask = mask)
    (h' : (7 : UInt16) &&& mask = 0) :
    (w.finish rw 7).status &&& mask =
      (if w.resolved then w.result.status else w.result.status ||| srInvalid) &&& mask := by
  show ((if (!w.resolved && decide (7 ≤ 7)) = true then _ else _) &&& 0xfff0 |||
    UInt16.ofNat w.level &&& 7) &&& mask = _
  rw [or_and_distrib, UInt16.and_assoc, UInt16.and_assoc, h, h', UInt16.and_zero, UInt16.or_zero]
  cases w.resolved <;> rfl

/-- The loop of a walk without side effects. -/
def freshLoop (s : M68kMmu) (logical fc : UInt32) : Walk :=
  walkLoop s.regs s.physicalError fc true false 7 7
    (Walk.start s.regs s.memory 0 logical fc { physicalAddress := logical })

theorem freshWalk_eq (s : M68kMmu) (logical fc : UInt32) (rw : Bool) :
    freshWalk s logical fc rw = (freshLoop s logical fc).finish rw 7 := by
  show (walkLoop s.regs s.physicalError fc rw false 7 7 _).finish rw 7 = _
  rw [walkLoop_direction rw]
  rfl

/-- Walks without a fault find valid descriptors. -/
theorem valid_of_walk (hs : FreshTables s) (hp : p ∈ walkTrail s logical fc)
    (hind : p.indirect = false) (hhard : hardFault (freshWalk s logical fc true).status = false) :
    read32 s.memory p.address &&& dfDt ≠ dfDtInvalid := by
  intro hinvalid
  have hfinish : (freshWalk s logical fc true).status &&& srInvalid = 0 := by
    unfold hardFault at hhard
    rw [bne_eq_false_iff_eq] at hhard
    have hpart : (srBusError ||| srInvalid ||| srSupervisorOnly) &&& srInvalid = srInvalid := rfl
    rw [← hpart, ← UInt16.and_assoc, hhard, UInt16.zero_and]
  rw [freshWalk_eq, finish_and _ _ rfl rfl] at hfinish
  rcases walkLoop_invalid (hs.trail_answers logical fc) hp hind hinvalid rfl with h | h
  · change (freshLoop s logical fc).result.status &&& srInvalid ≠ 0 at h
    split_ifs at hfinish
    · exact h hfinish
    · rw [or_and_distrib, UInt16.or_eq_zero_iff] at hfinish
      exact h hfinish.1
  · change (freshLoop s logical fc).resolved = false at h
    rw [h, if_neg Bool.false_ne_true, or_and_distrib, UInt16.or_eq_zero_iff] at hfinish
    exact absurd hfinish.2 (by decide)

/-- What a walk to a page says is what its descriptors say. -/
theorem freshLoop_page (hs : FreshTables s) (hp : p ∈ walkTrail s logical fc)
    (hpage : IsPage s.memory p) :
    (freshLoop s logical fc).result.status = statusAll s.memory fc 0 (walkTrail s logical fc) ∧
      ((walkTrail s logical fc).length < 7 → (freshLoop s logical fc).resolved = true) := by
  obtain ⟨hstatus, hres⟩ :=
    walkLoop_page (hs.trail_answers logical fc) hp hpage rfl (Nat.le_add_right 7 _)
  exact ⟨hstatus, fun hlt => hres (by rwa [show Walk.level _ = 0 from rfl, Nat.zero_add])⟩

/-- A write that the tables allow finds no write protection. -/
theorem writable_of_walk (hs : FreshTables s) (hp : p ∈ walkTrail s logical fc)
    (hpage : IsPage s.memory p) (hfault : (freshWalk s logical fc false).fault = false) :
    read32 s.memory p.address &&& dfWp = 0 := by
  rw [freshWalk_fault, Bool.or_eq_false_iff, Bool.not_false, Bool.true_and, bne_eq_false_iff_eq,
    freshWalk_eq, finish_and _ _ rfl rfl, (freshLoop_page hs hp hpage).1] at hfault
  have hwp : statusAll s.memory fc 0 (walkTrail s logical fc) &&& srWriteProtect = 0 := by
    have hkept := hfault.2
    split_ifs at hkept
    · exact hkept
    · rw [or_and_distrib, UInt16.or_eq_zero_iff] at hkept
      exact hkept.1
  refine (placeStatus_protected hpage.direct ?_).1 ((statusAll_and_eq_zero.1 hwp).2 p hp)
  rw [hpage.type]
  decide

/-- The tables allow a write that passes. -/
theorem Passes.fault (h : Passes s logical fc) (hs : FreshTables s)
    (hp : p ∈ walkTrail s logical fc) (hpage : IsPage s.memory p) :
    (freshWalk s logical fc rw).fault = false := by
  obtain ⟨hstatus, hres⟩ := freshLoop_page hs hp hpage
  have hand : ∀ mask : UInt16, (0xfff0 : UInt16) &&& mask = mask → (7 : UInt16) &&& mask = 0 →
      (∀ q ∈ walkTrail s logical fc, placeStatus s.memory fc 0 q &&& mask = 0) →
        (freshWalk s logical fc rw).status &&& mask = 0 := by
    intro mask hmask hmask' hplaces
    rw [freshWalk_eq, finish_and _ _ hmask hmask', hres h.levels, if_pos rfl, hstatus]
    exact statusAll_and_eq_zero.2 ⟨UInt16.zero_and, hplaces⟩
  have hhard := hand (srBusError ||| srInvalid ||| srSupervisorOnly) rfl rfl fun q hq =>
    placeStatus_accessible fun hfc hind hlong => h.accessible hfc q hq hind hlong
  have hwp := hand srWriteProtect rfl rfl fun q hq => by
    by_cases hind : q.indirect = true
    · rw [placeStatus, if_pos hind]
      exact UInt16.zero_and
    rw [Bool.not_eq_true] at hind
    rw [placeStatus, hind, if_neg Bool.false_ne_true, statusFromDescriptor_and,
      h.writable q hq hind, flag_and_eq_zero (show srModified &&& srWriteProtect = 0 from rfl),
      flag_and_eq_zero (show srSupervisorOnly &&& srWriteProtect = 0 from rfl)]
    simp [flag]
  rw [freshWalk_fault, hardFault, hhard, hwp]
  simp

end

/-! ## Walks through marked tables -/

/-- A state in front of a walk: its tables are those of `s`, with marks. -/
structure Ready (s s' : M68kMmu) : Prop where
  regs : s'.regs = s.regs
  physicalError : s'.physicalError = s.physicalError
  marked : MarkedIn (visited s) s.memory s'.memory
  tmpSr : s'.tmpSr = 0

/-- What an entry says of its page. -/
structure EntrySound (s : M68kMmu) (m : Memory) (entry : AtcEntry) : Prop where
  allowed : ∀ logical fc, entry.serves s.regs logical fc = true → entry.fault = false →
    hardFault (freshWalk s logical fc true).status = false
  modified : ∀ logical fc, entry.serves s.regs logical fc = true → entry.modified = true →
    ∀ p ∈ walkTrail s logical fc, IsPage s.memory p → read32 m p.address &&& dfModified ≠ 0

section
variable {s s' : M68kMmu} {m m' : Memory} {logical fc : UInt32} {rw sideEffects : Bool}
  {p : Place} {entry : AtcEntry}

theorem EntrySound.grows (h : EntrySound s m entry) (htc : ValidTc s.regs) (hgrows : Grows m m') :
    EntrySound s m' entry where
  allowed := h.allowed
  modified logical fc hserves hmod p hp hpage :=
    hgrows _ (walkTrail_aligned htc hp) _ (h.modified logical fc hserves hmod p hp hpage)

/-- A walk marks the descriptors of its trail. -/
theorem Ready.walk_marks (h : Ready s s') (hs : FreshTables s) (logical fc : UInt32) (rw : Bool) :
    (pmmuWalkTables s' logical fc rw 7 true { physicalAddress := logical }).1.memory =
      markAll rw s'.memory (walkTrail s logical fc) := by
  show (walkLoop s'.regs s'.physicalError fc rw true 7 7
    (Walk.start s'.regs s'.memory s'.tmpSr logical fc { physicalAddress := logical })).memory = _
  rw [h.regs, h.physicalError, h.tmpSr]
  exact walkLoop_marks rw (start_alike fc hs.tc (.refl _ logical) s.memory s'.memory) (by omega)
    hs.tc.size (.refl _ _) hs.unshared h.marked rfl (fun _ hp => visited_of_mem hp)
    (hs.trail_answers logical fc)

/-- The fault of a walk is that of a walk through the tables as they were. -/
theorem Ready.walk_fault (h : Ready s s') (hs : FreshTables s) (logical fc : UInt32)
    (rw sideEffects : Bool) :
    (pmmuWalkTables s' logical fc rw 7 sideEffects { physicalAddress := logical }).2.fault =
      (freshWalk s logical fc rw).fault :=
  ((walk_alike s' hs.toValidTables h.regs h.physicalError h.tmpSr h.marked (.refl _ _)).1.agree
    hs.bounds.1 hs.bounds.2 rfl rfl).fault

/-- The entry of a walk is sound. -/
theorem Ready.newEntry_sound (h : Ready s s') (hs : FreshTables s) (logical fc : UInt32)
    (rw sideEffects : Bool) :
    let t := pmmuWalkTables s' logical fc rw 7 sideEffects { physicalAddress := logical }
    EntrySound s t.1.memory (newEntry s.regs logical t.2.physicalAddress fc t.2) := by
  intro t
  constructor
  · intro b fc' hserves hfault
    obtain ⟨hab, hfc⟩ := newEntry_serves hs.toValidTables hserves
    have hwalk : SameResult s.regs logical b t.2 (freshWalk s b fc true) :=
      (walk_alike s' hs.toValidTables h.regs h.physicalError h.tmpSr h.marked hab).1
    have hhard : t.2.fault = (hardFault t.2.status || (!rw && t.2.status &&& srWriteProtect != 0)) :=
      rfl
    change t.2.fault = false at hfault
    rw [hhard, Bool.or_eq_false_iff] at hfault
    rw [← freshWalk_fc hfc, ← hwalk.status.hardFault]
    exact hfault.1
  · intro b fc' hserves hmod p hp hpage
    obtain ⟨hab, hfc⟩ := newEntry_serves hs.toValidTables hserves
    rw [← walkTrail_congr hs.toValidTables hab hfc] at hp
    change (t.2.status &&& srModified != 0) = true at hmod
    rw [bne_iff_ne] at hmod
    generalize hw : walkLoop s'.regs s'.physicalError fc rw sideEffects 7 7
      (Walk.start s'.regs s'.memory s'.tmpSr logical fc { physicalAddress := logical }) = w
    have ht : t = ({ s' with memory := w.memory, tmpSr := w.tmpSr }, w.finish rw 7) := by
      rw [← hw]
      rfl
    rw [ht] at hmod ⊢
    rw [finish_and _ _ rfl rfl] at hmod
    have hstatus : w.result.status &&& srModified ≠ 0 := by
      intro h0
      refine hmod ?_
      split_ifs
      · exact h0
      · rw [or_and_distrib, h0]
        rfl
    rw [h.regs, h.physicalError, h.tmpSr] at hw
    rw [← hw] at hstatus ⊢
    exact walkLoop_modified (start_alike fc hs.tc (.refl _ logical) s.memory s'.memory) (by omega)
      hs.tc.size (.refl _ _) hs.unshared h.marked rfl (fun _ hq => visited_of_mem hq)
      (hs.trail_answers logical fc) hp hpage UInt16.zero_and hstatus

end

/-! ## Translations -/

/-- What of a processor a translation changes: the memory, and the entries, of which one is new at
    most. -/
structure After (s s' : M68kMmu) (m : Memory) (new : Option AtcEntry) : Prop where
  regs : s'.regs = s.regs
  physicalError : s'.physicalError = s.physicalError
  memory : s'.memory = m
  atc : ∀ entry ∈ s'.atc, entry.valid = true → entry ∈ s.atc ∨ new = some entry

section
variable {s s' : M68kMmu} {m : Memory} {t : Translation} {entry : AtcEntry}

theorem Translation.intent_cases (t : Translation) : t.intent = .normal ∨ t.intent = .probe := by
  unfold Translation.intent
  cases t.probe with
  | true => exact .inr rfl
  | false => exact .inl rfl

theorem translate_transparent (hk : s.regs.kind ≠ .m68040)
    (ht : transparent s.regs t.logical t.fc t.rw = true) :
    After s (pmmuTranslate s t.logical t.fc t.rw t.size t.intent 7).1 s.memory none := by
  unfold pmmuTranslate
  rw [if_neg hk]
  dsimp only
  rw [ht, if_pos rfl]
  exact ⟨rfl, rfl, rfl, fun entry hmem _ => .inl hmem⟩

/-- A translation that the cache serves. -/
theorem translate_hit (hk : s.regs.kind ≠ .m68040)
    (ht : transparent s.regs t.logical t.fc t.rw = false) (hscan : cached s t = some entry) :
    After s (pmmuTranslate s t.logical t.fc t.rw t.size t.intent 7).1 s.memory none ∧
      (pmmuTranslate s t.logical t.fc t.rw t.size t.intent 7).2.fault =
        (entry.fault || (!t.rw && entry.writeProtect)) := by
  have hscanned := atcScan_scanned s.regs t.logical t.fc t.rw s.atc
  have htranslate : pmmuTranslate s t.logical t.fc t.rw t.size t.intent 7 =
      (recordFault
        { accessStart s t.logical with
          atc := (atcScan s.regs t.logical t.fc t.rw false s.atc).1, atcHits := s.atcHits + 1 }
        t.logical t.fc t.rw t.size t.intent
        (entry.answer s.regs t.logical t.rw { physicalAddress := t.logical }),
        entry.answer s.regs t.logical t.rw { physicalAddress := t.logical }) := by
    unfold cached at hscan
    simp [pmmuTranslate, hk, ht, pmmuAtcLookup, hscan, accessStart, t.intent_cases]
  rw [htranslate]
  obtain ⟨hr, he, hm, hatc⟩ := recordFault_tables
    { accessStart s t.logical with
      atc := (atcScan s.regs t.logical t.fc t.rw false s.atc).1, atcHits := s.atcHits + 1 }
    t.logical t.fc t.rw t.size t.intent
    (entry.answer s.regs t.logical t.rw { physicalAddress := t.logical })
  refine ⟨⟨hr, he, hm, fun e hmem hv => ?_⟩, rfl⟩
  rw [hatc] at hmem
  exact .inl (hscanned.left e hmem hv)

/-- A translation that walks through the tables. -/
theorem translate_miss (hk : s.regs.kind ≠ .m68040)
    (ht : transparent s.regs t.logical t.fc t.rw = false) (hscan : cached s t = none) :
    let w := pmmuWalkTables (walkStart s t.logical t.fc t.rw) t.logical t.fc t.rw 7 (!t.probe)
      { physicalAddress := t.logical }
    After s (pmmuTranslate s t.logical t.fc t.rw t.size t.intent 7).1 w.1.memory
        (some (newEntry s.regs t.logical w.2.physicalAddress t.fc w.2)) ∧
      (pmmuTranslate s t.logical t.fc t.rw t.size t.intent 7).2 = w.2 := by
  intro w
  have hscanned := atcScan_scanned s.regs t.logical t.fc t.rw s.atc
  have hside : (t.intent == .normal || t.intent == .pload) = !t.probe := by
    unfold Translation.intent
    cases t.probe <;> rfl
  have htranslate : pmmuTranslate s t.logical t.fc t.rw t.size t.intent 7 =
      (recordFault (pmmuAtcAdd w.1 t.logical w.2.physicalAddress t.fc w.2) t.logical t.fc t.rw
        t.size t.intent w.2, w.2) := by
    unfold cached at hscan
    have hadd : t.intent = .normal ∨ t.intent = .pload ∨ t.intent = .probe :=
      t.intent_cases.imp_right .inr
    simp [pmmuTranslate, hk, ht, pmmuAtcLookup, hscan, t.intent_cases, hside, hadd, w, accessStart,
      walkStart]
  rw [htranslate]
  obtain ⟨hr, he, hm, hatc⟩ := recordFault_tables
    (pmmuAtcAdd w.1 t.logical w.2.physicalAddress t.fc w.2) t.logical t.fc t.rw t.size t.intent w.2
  obtain ⟨hr', he', hm'⟩ := pmmuAtcAdd_tables w.1 t.logical w.2.physicalAddress t.fc w.2
  refine ⟨⟨hr.trans hr', he.trans he', hm.trans hm', fun e hmem hv => ?_⟩, rfl⟩
  rw [hatc] at hmem
  rcases mem_pmmuAtcAdd hmem with hold | rfl
  · exact .inl (hscanned.left e hold hv)
  · exact .inr rfl

/-- A write that the cache serves finds its page modified, or protected. -/
theorem cached_modified {r : Registers} {logical fc : UInt32} {atc : List AtcEntry}
    (h : (atcScan r logical fc false false atc).2 = some entry) :
    entry.modified = true ∨ entry.writeProtect = true := by
  induction atc with
  | nil => cases h
  | cons e entries ih =>
    unfold atcScan at h
    split_ifs at h with hserves hdrop
    · exact ih h
    · exact ih h
    · obtain rfl : e = entry := Option.some.inj h
      cases hmod : e.modified with
      | true => exact .inl rfl
      | false =>
        cases hwp : e.writeProtect with
        | true => exact .inr rfl
        | false => simp [hmod, hwp] at hdrop

end

/-! ## What the run keeps -/

/-- The valid descriptors on the walk of an address are used. -/
def UsedOn (s : M68kMmu) (m : Memory) (t : Translation) : Prop :=
  ∀ p ∈ walkTrail s t.logical t.fc, p.indirect = false →
    read32 s.memory p.address &&& dfDt ≠ dfDtInvalid → read32 m p.address &&& dfUsed ≠ 0

structure Recording (s : M68kMmu) (h : History) : Prop where
  regs : h.mmu.regs = s.regs
  physicalError : h.mmu.physicalError = s.physicalError
  marked : MarkedIn (visited s) s.memory h.mmu.memory
  entries : ∀ entry ∈ h.mmu.atc, entry.valid = true → EntrySound s h.mmu.memory entry
  walked : ∀ e ∈ h.log, e.walked = true → UsedOn s h.mmu.memory e.access
  exact : Exact s h

section
variable {s s' : M68kMmu} {h : History} {m : Memory} {t : Translation} {new : Option AtcEntry}

theorem Recording.ready (hrec : Recording s h) (t : Translation) :
    Ready s (walkStart h.mmu t.logical t.fc t.rw) :=
  ⟨hrec.regs, hrec.physicalError, hrec.marked, rfl⟩

/-- A translation that marks nothing, and that is not recorded. -/
theorem Recording.quiet (hrec : Recording s h) (hafter : After h.mmu s' h.mmu.memory new)
    (hnew : ∀ entry, new = some entry → EntrySound s h.mmu.memory entry) :
    Recording s ⟨s', h.log⟩ where
  regs := hafter.regs.trans hrec.regs
  physicalError := hafter.physicalError.trans hrec.physicalError
  marked := by
    rw [hafter.memory]
    exact hrec.marked
  entries entry hmem hv := by
    rw [hafter.memory]
    rcases hafter.atc entry hmem hv with hold | hold
    · exact hrec.entries entry hold hv
    · exact hnew entry hold
  walked := by
    rw [hafter.memory]
    exact hrec.walked
  exact := by
    refine ⟨?_, ?_⟩
    · rw [hafter.memory]
      exact hrec.exact.used
    · rw [hafter.memory]
      exact hrec.exact.modified

/-- What has to be shown of an access that is recorded. -/
structure Recorded (s : M68kMmu) (m m' : Memory) (e : Record) : Prop where
  walked : e.walked = true → UsedOn s m' e.access
  used : e.fault = false → ∀ p ∈ walkTrail s e.access.logical e.access.fc, p.indirect = false →
    read32 m' p.address &&& dfUsed ≠ 0
  modified : ∀ p, visited s p → IsPage s.memory p →
    (read32 m' p.address &&& dfModified ≠ 0 ↔ read32 m p.address &&& dfModified ≠ 0 ∨
      e.access.rw = false ∧ e.fault = false ∧ p ∈ walkTrail s e.access.logical e.access.fc)

theorem Recording.record (hrec : Recording s h) (htc : ValidTc s.regs)
    (hafter : After h.mmu s' m new) (hmarked : MarkedIn (visited s) s.memory m)
    (hgrows : Grows h.mmu.memory m) (hnew : ∀ entry, new = some entry → EntrySound s m entry)
    {e : Record} (he : Recorded s h.mmu.memory m e) : Recording s ⟨s', e :: h.log⟩ where
  regs := hafter.regs.trans hrec.regs
  physicalError := hafter.physicalError.trans hrec.physicalError
  marked := by
    rw [hafter.memory]
    exact hmarked
  entries entry hmem hv := by
    rw [hafter.memory]
    rcases hafter.atc entry hmem hv with hold | hold
    · exact (hrec.entries entry hold hv).grows htc hgrows
    · exact hnew entry hold
  walked e' hmem hwalked := by
    rw [hafter.memory]
    rcases List.mem_cons.1 hmem with rfl | hmem
    · exact he.walked hwalked
    · intro p hp hind hvalid
      exact hgrows _ (walkTrail_aligned htc hp) _ (hrec.walked e' hmem hwalked p hp hind hvalid)
  exact := by
    constructor
    · intro e' hmem hfault p hp hind
      show read32 s'.memory _ &&& _ ≠ 0
      rw [hafter.memory]
      rcases List.mem_cons.1 hmem with rfl | hmem
      · exact he.used hfault p hp hind
      · exact hgrows _ (walkTrail_aligned htc hp) _ (hrec.exact.used e' hmem hfault p hp hind)
    · intro p hp hpage
      show read32 s'.memory _ &&& _ ≠ 0 ↔ _
      rw [hafter.memory, he.modified p hp hpage, hrec.exact.modified p hp hpage]
      simp only [List.exists_mem_cons_iff, or_comm]

/-- An access that the cache serves leaves no mark, and needs none. -/
theorem Recording.hit_recorded (hrec : Recording s h) (hs : FreshTables s) {entry : AtcEntry}
    (hscan : cached h.mmu t = some entry) (hfresh : Refreshed h t entry) {fault : Bool}
    (hfault : fault = (entry.fault || (!t.rw && entry.writeProtect))) :
    Recorded s h.mmu.memory h.mmu.memory ⟨t, fault, false⟩ := by
  have hscanned := atcScan_scanned h.mmu.regs t.logical t.fc t.rw h.mmu.atc
  obtain ⟨hmem, hserves⟩ := hscanned.hit entry hscan
  have hsound := hrec.entries entry hmem (AtcEntry.serves_valid hserves)
  rw [hrec.regs] at hserves
  constructor
  · nofun
  · intro hok p hp hind
    change fault = false at hok
    rw [hfault, Bool.or_eq_false_iff] at hok
    have hpass : t.rw = true ∨ entry.writeProtect = false := by
      cases hrw : t.rw with
      | true => exact .inl rfl
      | false =>
        rw [hrw] at hok
        exact .inr hok.2
    obtain ⟨e, he, hwalked, hsame, hfc⟩ := hfresh hok.1 hpass
    rw [hrec.regs] at hsame
    have hvalid := valid_of_walk hs hp hind (hsound.allowed t.logical t.fc hserves hok.1)
    refine hrec.walked e he hwalked p ?_ hind hvalid
    rw [walkTrail_congr hs.toValidTables hsame hfc]
    exact hp
  · intro p hp hpage
    refine ⟨.inl, ?_⟩
    rintro (hmod | ⟨hrw, hok, hmem'⟩)
    · exact hmod
    · change t.rw = false at hrw
      change fault = false at hok
      rw [hfault, hrw, Bool.not_false, Bool.true_and, Bool.or_eq_false_iff] at hok
      unfold cached at hscan
      rw [hrw] at hscan
      rcases cached_modified hscan with hmod | hwp
      · exact hsound.modified t.logical t.fc hserves hmod p hmem' hpage
      · rw [hok.2] at hwp
        cases hwp

/-- An access that walks leaves the marks. -/
theorem Recording.miss_recorded (hrec : Recording s h) (hs : FreshTables s)
    (hpass : Unprotected s h t) :
    Recorded s h.mmu.memory (markAll t.rw h.mmu.memory (walkTrail s t.logical t.fc))
      ⟨t, (freshWalk s t.logical t.fc t.rw).fault, true⟩ := by
  have haligned : ∀ q ∈ walkTrail s t.logical t.fc, Aligned q.address := fun _ hq =>
    walkTrail_aligned hs.tc hq
  have hused : UsedOn s (markAll t.rw h.mmu.memory (walkTrail s t.logical t.fc)) t := by
    intro p hp hind hvalid
    refine markAll_used t.rw haligned _ hp hind ?_
    rwa [(hrec.marked.kept (haligned p hp)).type]
  constructor
  · exact fun _ => hused
  · intro hok p hp hind
    refine hused p hp hind (valid_of_walk hs hp hind ?_)
    have hhard : (freshWalk s t.logical t.fc t.rw).fault = false := hok
    rw [freshWalk_fault, Bool.or_eq_false_iff, freshWalk_status] at hhard
    exact hhard.1
  · intro p hp hpage
    have hpa := visited_aligned hs.tc hp
    constructor
    · intro hbit
      by_cases hold : read32 h.mmu.memory p.address &&& dfModified = 0
      · right
        rcases modified_markAll haligned _ hpa hbit with hbit' | ⟨q, hq, hind, hqp, hrw, -, hwp⟩
        · exact absurd hold hbit'
        · -- descriptors that share their first word are one
          obtain rfl : q = p := hs.unshared q p (visited_of_mem hq) hp q.address
            (List.mem_cons_self ..) (by rw [hqp]; exact List.mem_cons_self ..)
          rw [(hrec.marked.kept hpa).writeProtect] at hwp
          refine ⟨hrw, ?_, hq⟩
          exact (hpass hrw q hq hpage hwp hold).fault hs hq hpage
      · exact .inl hold
    · rintro (hbit | ⟨hrw, hok, hmem⟩)
      · exact markAll_grows t.rw haligned _ _ hpa _ hbit
      · change t.rw = false at hrw
        change (freshWalk s t.logical t.fc t.rw).fault = false at hok
        rw [hrw] at hok ⊢
        refine markAll_modified haligned _ hmem hpage.direct ?_ ?_
        · rw [(hrec.marked.kept hpa).type]
          exact hpage.type
        · rw [(hrec.marked.kept hpa).writeProtect]
          exact writable_of_walk hs hmem hpage hok

/-- A translation that meets the condition keeps the record. -/
theorem Recording.step (hrec : Recording s h) (hs : FreshTables s) (hok : Records s h t) :
    Recording s (h.step t) := by
  have hk : h.mmu.regs.kind ≠ .m68040 := by
    rw [hrec.regs]
    exact hs.kind
  unfold History.step
  dsimp only
  cases ht : transparent h.mmu.regs t.logical t.fc t.rw with
  | true =>
    rw [Bool.or_true, if_pos rfl]
    exact hrec.quiet (translate_transparent hk ht) nofun
  | false =>
    rw [Bool.or_false]
    cases hscan : cached h.mmu t with
    | some entry =>
      obtain ⟨hafter, hfault⟩ := translate_hit hk ht hscan
      cases hprobe : t.probe with
      | true =>
        rw [if_pos rfl]
        exact hrec.quiet hafter nofun
      | false =>
        rw [if_neg Bool.false_ne_true]
        exact hrec.record hs.tc hafter hrec.marked (.refl _) nofun
          (hrec.hit_recorded hs hscan ((hok hprobe ht).1 entry hscan) hfault)
    | none =>
      obtain ⟨hafter, hresult⟩ := translate_miss hk ht hscan
      have hready := hrec.ready t
      cases hprobe : t.probe with
      | true =>
        rw [hprobe, Bool.not_true] at hafter
        have hmemory : (pmmuWalkTables (walkStart h.mmu t.logical t.fc t.rw) t.logical t.fc t.rw 7
            false { physicalAddress := t.logical }).1.memory = h.mmu.memory := walkLoop_memory _ _ _
        have hsound := hready.newEntry_sound hs t.logical t.fc t.rw false
        dsimp only at hsound
        rw [hmemory] at hafter hsound
        rw [if_pos rfl]
        refine hrec.quiet hafter fun entry hentry => ?_
        rw [← Option.some.inj hentry, hrec.regs]
        exact hsound
      | false =>
        rw [hprobe, Bool.not_false] at hafter hresult
        have hmemory := hready.walk_marks hs t.logical t.fc t.rw
        have hmarked := (walk_alike _ hs.toValidTables hready.regs hready.physicalError hready.tmpSr
          hready.marked (.refl _ t.logical) : SameResult s.regs t.logical t.logical
            (pmmuWalkTables _ t.logical t.fc t.rw 7 true _).2 (freshWalk s t.logical t.fc true) ∧
            _).2
        have hsound := hready.newEntry_sound hs t.logical t.fc t.rw true
        dsimp only at hsound
        rw [hmemory] at hafter hsound hmarked
        rw [if_neg Bool.false_ne_true, hresult, hready.walk_fault hs]
        refine hrec.record hs.tc hafter hmarked ?_ ?_ (hrec.miss_recorded hs ((hok hprobe ht).2 hscan))
        · exact markAll_grows t.rw (fun _ hq => walkTrail_aligned hs.tc hq) _
        · intro entry hentry
          rw [← Option.some.inj hentry, hrec.regs]
          exact hsound

theorem flushed_recording (hs : FreshTables s) : Recording s ⟨pmmuAtcFlush s, []⟩ where
  regs := rfl
  physicalError := rfl
  marked := .refl _ _
  entries entry hmem hv := by
    obtain ⟨e, -, rfl⟩ := List.mem_map.1 hmem
    cases hv
  walked := nofun
  exact := by
    refine ⟨nofun, fun p hp hpage => iff_of_false (not_not.2 (hs.unmodified p hp hpage)) ?_⟩
    rintro ⟨e, hmem, -⟩
    cases hmem

/-- After a full flush the bits are exact, as long as no access is served that only a probe has
    walked for, and every write that marks its page passes. -/
theorem history_exact (s : M68kMmu) (hs : FreshTables s) (ts : List Translation)
    (hok : Guarded History.step (Records s) ⟨pmmuAtcFlush s, []⟩ ts) :
    Exact s (run History.step ⟨pmmuAtcFlush s, []⟩ ts) :=
  (guarded_run_inv (fun _ _ hok hrec => hrec.step hs hok) (flushed_recording hs) hok).exact

end

theorem smallTables_word {x : UInt32} (hx : Aligned x) :
    read32 smallTables.memory x = if x = 0x1000 then 0x00500005 else 0 := by
  show read32 (write32 (fun _ => 0) 0x1000 0x00500005) x = _
  by_cases h : x = 0x1000
  · rw [if_pos h, h, read32_write32]
  · rw [if_neg h, read32_write32_of_ne _ (by decide) hx h]
    simp [read32, span_four, compose]

theorem smallTables_unmarked {p : Place} (hp : visited smallTables p) :
    read32 smallTables.memory p.address &&& (dfUsed ||| dfModified) = 0 := by
  rw [smallTables_word (visited_aligned validTables_small.tc hp)]
  split_ifs <;> rfl

theorem freshTables_small : FreshTables smallTables where
  toValidTables := validTables_small
  answers _ _ _ _ := rfl
  unmodified p hp _ := by
    have hpart : (dfUsed ||| dfModified) &&& dfModified = dfModified := rfl
    rw [← hpart, ← UInt32.and_assoc, smallTables_unmarked hp, UInt32.zero_and]

/-- The probe comes after an access to the page, and the write is refused. -/
theorem history_exact_small :
    Exact smallTables (run History.step ⟨pmmuAtcFlush smallTables, []⟩
      [{ logical := 0x10, fc := 5, rw := true }, { logical := 0x14, fc := 5, rw := true, probe := true },
        { logical := 0x18, fc := 5, rw := true }, { logical := 0x1c, fc := 5, rw := false }]) := by
  refine history_exact smallTables freshTables_small _ ⟨fun _ _ => ⟨fun entry hentry => ?_, ?_⟩, nofun,
    fun _ _ => ⟨fun _ _ _ _ => ⟨_, List.mem_cons_self .., ?_, rfl, rfl⟩, ?_⟩,
    fun _ _ => ⟨fun _ _ _ _ => ⟨_, List.mem_cons_of_mem _ (List.mem_cons_self ..), ?_, rfl, rfl⟩,
      fun hmiss => ?_⟩, trivial⟩
  · have hnone : (cached (pmmuAtcFlush smallTables) ⟨0x10, 5, true, 4, false⟩).isNone = true := by
      decide +kernel
    rw [Option.isNone_iff_eq_none.1 hnone] at hentry
    cases hentry
  · nofun
  · decide +kernel
  · nofun
  · decide +kernel
  · exact absurd (congrArg Option.isNone hmiss) (by decide +kernel)

/-- A probe lets a read pass that leaves no mark. -/
theorem probe_hides_read :
    FreshTables smallTables ∧
      (∀ p, visited smallTables p →
        read32 smallTables.memory p.address &&& (dfUsed ||| dfModified) = 0) ∧
      ¬ Exact smallTables (run History.step ⟨pmmuAtcFlush smallTables, []⟩
        [{ logical := 0x10, fc := 5, rw := true, probe := true },
          { logical := 0x14, fc := 5, rw := true }]) := by
  refine ⟨freshTables_small, fun p hp => smallTables_unmarked hp, fun h => ?_⟩
  have htrail : walkTrail smallTables 0x14 5 = [⟨0x1000, false, false⟩] := by decide +kernel
  have hfault : (pmmuTranslate (History.step ⟨pmmuAtcFlush smallTables, []⟩
      ⟨0x10, 5, true, 4, true⟩).mmu 0x14 5 true 4 .normal 7).2.fault = false := by decide +kernel
  have hused := h.used
    ⟨⟨0x14, 5, true, 4, false⟩, _, (cached (History.step ⟨pmmuAtcFlush smallTables, []⟩
      ⟨0x10, 5, true, 4, true⟩).mmu ⟨0x14, 5, true, 4, false⟩).isNone⟩ (List.mem_cons_self ..) hfault
    ⟨0x1000, false, false⟩ (by rw [htrail]; exact List.mem_cons_self ..) rfl
  exact hused (by decide +kernel)

end CuteMac.Cpu

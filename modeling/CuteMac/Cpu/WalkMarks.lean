/-
  What a walk through the tables of the 68030 makes of the descriptors on its way.

  * `markPlace`, `markAll`: the marks that an access leaves in descriptors;
  * `placeStatus`, `statusAll`: the status that they add up to;
  * `fetchStep_cases`: an iteration reads its descriptors, or ends with a bus error;
  * `page_last`: the page descriptor of a walk is the last one;
  * `walkLoop_page`, `walkLoop_invalid`: the end of a walk;
  * `walkLoop_marks`: a walk with side effects marks the descriptors of its trail;
  * `walkLoop_modified`: a walk says that a page was modified where its descriptor does.

  Nothing fails to answer where the tables are.
-/
import CuteMac.Cpu.TranslationTables

namespace CuteMac.Cpu

open ByteMemory Pages

/-! ## Marks and statuses of descriptors -/

/-- A descriptor is marked by an access; an indirect one is not. -/
def markPlace (rw : Bool) (m : Memory) (p : Place) : Memory :=
  if p.indirect then m
  else
    let first := read32 m p.address
    if marked (first &&& dfDt) first rw = first then m
    else write32 m p.address (marked (first &&& dfDt) first rw)

def markAll (rw : Bool) (m : Memory) (places : List Place) : Memory := places.foldl (markPlace rw) m

/-- What a descriptor adds to the status of a walk. -/
def placeStatus (m : Memory) (fc : UInt32) (status : UInt16) (p : Place) : UInt16 :=
  if p.indirect then status
  else
    pmmuStatusFromDescriptor (read32 m p.address &&& dfDt) (read32 m p.address) p.isLong fc status

def statusAll (m : Memory) (fc : UInt32) (status : UInt16) (places : List Place) : UInt16 :=
  places.foldl (placeStatus m fc) status

/-- Nothing fails to answer at the words of descriptors. -/
def Answers (error : UInt32 → Bool) (places : List Place) : Prop :=
  ∀ p ∈ places, ∀ x ∈ p.words, error x = false

section
variable {error : UInt32 → Bool} {r : Registers} {fc : UInt32} {w : Walk} {rw sideEffects : Bool}

theorem Answers.readStatus {p : Place} {places : List Place} (h : Answers error places)
    (hp : p ∈ places) : readStatus error p.address p.isLong = 0 := by
  unfold Cpu.readStatus
  rw [h p hp p.address (List.mem_cons_self ..)]
  cases hlong : p.isLong with
  | false => simp [flag]
  | true =>
    rw [if_pos rfl, h p hp (p.address + 4) (by simp [Place.words, hlong])]
    simp [flag]

/-- An iteration reads one descriptor, or finds it through an indirect one, or there is a bus
    error. -/
theorem fetchStep_cases (h0 : w.type ≠ dfDtInvalid) (h1 : w.type ≠ dfDtPage)
    (herror : Answers error (stepPlaces r error fc w)) :
    (stepPlaces r error fc w = [] ∧ (fetchStep r error fc w).2 = none ∧ ∃ tmpSr,
      (fetchStep r error fc w).1 = { w with bitpos := nextField w.bitpos, tmpSr := tmpSr }) ∨
    ∃ pre d, stepPlaces r error fc w = pre ++ [⟨d.address, d.isLong, false⟩] ∧
      (∀ p ∈ pre, p.indirect = true) ∧ (fetchStep r error fc w).2 = some d ∧
      d.first = read32 w.memory d.address ∧ error d.address = false ∧ ∃ tmpSr,
        (fetchStep r error fc w).1 =
          { w with
            bitpos := nextField w.bitpos
            type := d.first &&& dfDt
            level := w.level + (stepPlaces r error fc w).length
            tmpSr := tmpSr } := by
  have hplaces : stepPlaces r error fc w = w.places error (lastField r w.bitpos)
      (descriptorAddress r fc w) (w.type == dfDtTable8Byte) := if_neg (not_or.2 ⟨h0, h1⟩)
  rw [hplaces] at herror ⊢
  unfold fetchStep
  generalize descriptorAddress r fc w = address at herror ⊢
  generalize (w.type == dfDtTable8Byte) = isLong at herror ⊢
  generalize lastField r w.bitpos = indirect at herror ⊢
  unfold Walk.places at herror ⊢
  unfold Walk.fetch
  simp only [readDescriptor_eq] at herror ⊢
  by_cases hbus : (w.tmpSr ||| readStatus error address isLong) &&& srBusError = 0
  · simp only [if_neg (not_not.2 hbus)] at herror ⊢
    by_cases hind : (indirect && (read32 w.memory address &&& dfDt == dfDtTable4Byte ||
        read32 w.memory address &&& dfDt == dfDtTable8Byte)) = true
    · simp only [if_pos hind] at herror ⊢
      have hstatus := herror.readStatus (List.mem_cons_of_mem _ (List.mem_singleton_self _))
      dsimp only at hstatus
      have hbus' : ¬ (w.tmpSr ||| readStatus error address isLong ||| readStatus error
          ((if isLong = true then if isLong = true then read32 w.memory (address + 4) else 0
            else read32 w.memory address) &&& dfIndAddrMask)
          (read32 w.memory address &&& dfDt == dfDtTable8Byte)) &&& srBusError ≠ 0 := by
        rw [hstatus, UInt16.or_zero]
        exact not_not.2 hbus
      simp only [if_neg hbus']
      refine .inr ⟨[_], _, rfl, by simp, rfl, rfl, ?_, _, rfl⟩
      exact herror _ (List.mem_cons_of_mem _ (List.mem_singleton_self _)) _ (List.mem_cons_self ..)
    · simp only [if_neg hind] at herror ⊢
      refine .inr ⟨[], _, rfl, by simp, rfl, rfl, ?_, _, rfl⟩
      exact herror _ (List.mem_singleton_self _) _ (List.mem_cons_self ..)
  · simp only [if_pos hbus]
    exact .inl ⟨trivial, trivial, _, rfl⟩

theorem markAll_indirect {m : Memory} {pre : List Place} (h : ∀ p ∈ pre, p.indirect = true) :
    markAll rw m pre = m := by
  induction pre generalizing m with
  | nil => rfl
  | cons p pre ih =>
    rw [markAll, List.foldl_cons, markPlace, if_pos (h p (List.mem_cons_self ..))]
    exact ih fun q hq => h q (List.mem_cons_of_mem _ hq)

theorem statusAll_indirect {m : Memory} {status : UInt16} {pre : List Place}
    (h : ∀ p ∈ pre, p.indirect = true) : statusAll m fc status pre = status := by
  induction pre generalizing status with
  | nil => rfl
  | cons p pre ih =>
    rw [statusAll, List.foldl_cons, placeStatus, if_pos (h p (List.mem_cons_self ..))]
    exact ih fun q hq => h q (List.mem_cons_of_mem _ hq)

theorem markAll_append (rw : Bool) (m : Memory) (ps qs : List Place) :
    markAll rw m (ps ++ qs) = markAll rw (markAll rw m ps) qs := List.foldl_append ..

theorem statusAll_append (m : Memory) (fc : UInt32) (status : UInt16) (ps qs : List Place) :
    statusAll m fc status (ps ++ qs) = statusAll m fc (statusAll m fc status ps) qs :=
  List.foldl_append ..

/-- What an iteration does that reads a descriptor, and what its bus error does. -/
inductive Read (r : Registers) (error : UInt32 → Bool) (fc : UInt32) (rw sideEffects : Bool)
    (w : Walk) : Walk → Prop
  | failed (w' : Walk) (hplaces : stepPlaces r error fc w = []) (hmemory : w'.memory = w.memory)
      (hresolved : w'.resolved = true) (hlevel : w'.level = w.level) (tmpSr : UInt16)
      (hstatus : w'.result.status = w.result.status ||| tmpSr) : Read r error fc rw sideEffects w w'
  | descriptor (w' : Walk) (pre : List Place) (p : Place)
      (hplaces : stepPlaces r error fc w = pre ++ [p]) (hpre : ∀ q ∈ pre, q.indirect = true)
      (hp : p.indirect = false) (htype : w'.type = read32 w.memory p.address &&& dfDt)
      (hmemory : w'.memory =
        if sideEffects then markAll rw w.memory (stepPlaces r error fc w) else w.memory)
      (hresolved : w'.resolved = w.resolved)
      (hlevel : w'.level = w.level + (stepPlaces r error fc w).length)
      (hstatus : w'.result.status =
        statusAll w.memory fc w.result.status (stepPlaces r error fc w)) :
      Read r error fc rw sideEffects w w'

theorem walkStep_read (rw sideEffects : Bool) (h0 : w.type ≠ dfDtInvalid) (h1 : w.type ≠ dfDtPage)
    (herror : Answers error (stepPlaces r error fc w)) :
    Read r error fc rw sideEffects w (walkStep r error fc rw sideEffects w) := by
  rcases fetchStep_cases h0 h1 herror with ⟨hplaces, hnone, tmpSr, hw⟩ |
    ⟨pre, d, hplaces, hpre, hsome, hfirst, hd, tmpSr, hw⟩
  · rw [walkStep_none h0 h1 hw hnone]
    exact .failed _ hplaces rfl rfl rfl tmpSr rfl
  · rw [walkStep_some h0 h1 hw hsome, useDescriptor_eq hd]
    have hmark : markAll rw w.memory (stepPlaces r error fc w) =
        markPlace rw w.memory ⟨d.address, d.isLong, false⟩ := by
      rw [hplaces, markAll_append, markAll_indirect hpre]
      rfl
    have hstatus : statusAll w.memory fc w.result.status (stepPlaces r error fc w) =
        placeStatus w.memory fc w.result.status ⟨d.address, d.isLong, false⟩ := by
      rw [hplaces, statusAll_append, statusAll_indirect hpre]
      rfl
    refine .descriptor _ pre _ hplaces hpre rfl ?_ ?_ rfl rfl ?_
    · rw [hfirst]
    · rw [hmark, markPlace, if_neg Bool.false_ne_true]
      dsimp only
      rw [hfirst]
      cases sideEffects with
      | false => simp
      | true =>
        by_cases hm : marked (read32 w.memory d.address &&& dfDt) (read32 w.memory d.address) rw =
            read32 w.memory d.address <;> simp [hm]
    · rw [hstatus, placeStatus, if_neg Bool.false_ne_true]
      dsimp only
      rw [hfirst]

end

/-! ## Marks -/

/-- Bits that are set stay. -/
def Grows (m m' : Memory) : Prop :=
  ∀ x, Aligned x → ∀ mask, read32 m x &&& mask ≠ 0 → read32 m' x &&& mask ≠ 0

section
variable {m m' m'' : Memory} {p : Place} {places : List Place} {x first : UInt32} {rw : Bool}

theorem Grows.refl (m : Memory) : Grows m m := fun _ _ _ h => h

theorem Grows.trans (h : Grows m m') (h' : Grows m' m'') : Grows m m'' :=
  fun x hx mask hbit => h' x hx mask (h x hx mask hbit)

theorem or_and_ne_zero {a b mask : UInt32} (h : a &&& mask ≠ 0) : (a ||| b) &&& mask ≠ 0 := by
  intro h0
  refine h (UInt32.toNat_inj.1 (Nat.eq_of_testBit_eq fun i => ?_))
  have hbit := congrArg (fun x => x.toNat.testBit i) h0
  simp only [UInt32.toNat_and, UInt32.toNat_or, Nat.testBit_and, Nat.testBit_or] at hbit ⊢
  cases ha : a.toNat.testBit i with
  | false => simp
  | true =>
    rw [ha, Bool.true_or] at hbit
    simpa using hbit

theorem marked_grows {mask : UInt32} (type : UInt32) (rw : Bool) (h : first &&& mask ≠ 0) :
    marked type first rw &&& mask ≠ 0 := by
  unfold marked
  split_ifs
  · exact h
  · exact or_and_ne_zero (or_and_ne_zero h)
  · exact or_and_ne_zero (or_and_ne_zero h)

/-- Marks leave the other bits. -/
theorem marked_and {mask : UInt32} (h : dfUsed &&& mask = 0) (h' : dfModified &&& mask = 0)
    (type : UInt32) (rw : Bool) : marked type first rw &&& mask = first &&& mask := by
  unfold marked
  split_ifs
  · rfl
  · rw [or_and_of_disjoint h', or_and_of_disjoint h]
  · rw [UInt32.or_zero, or_and_of_disjoint h]

theorem read32_markPlace (rw : Bool) (m : Memory) (hp : Aligned p.address) (hx : Aligned x) :
    read32 (markPlace rw m p) x =
      if p.indirect = false ∧ x = p.address then
        marked (read32 m p.address &&& dfDt) (read32 m p.address) rw
      else read32 m x := by
  unfold markPlace
  by_cases hind : p.indirect = true
  · rw [if_pos hind, if_neg (by rw [hind]; simp)]
  · rw [if_neg hind]
    have hfalse : p.indirect = false := by simpa using hind
    dsimp only
    by_cases hm : marked (read32 m p.address &&& dfDt) (read32 m p.address) rw = read32 m p.address
    · rw [if_pos hm]
      by_cases hxp : x = p.address
      · rw [if_pos ⟨hfalse, hxp⟩, hm, hxp]
      · rw [if_neg fun h => hxp h.2]
    · rw [if_neg hm]
      by_cases hxp : x = p.address
      · rw [if_pos ⟨hfalse, hxp⟩, hxp, read32_write32]
      · rw [if_neg fun h => hxp h.2, read32_write32_of_ne m hp hx hxp]

theorem markPlace_grows (rw : Bool) (m : Memory) (hp : Aligned p.address) :
    Grows m (markPlace rw m p) := by
  intro x hx mask h
  rw [read32_markPlace rw m hp hx]
  split_ifs with hxp
  · rw [hxp.2] at h
    exact marked_grows _ rw h
  · exact h

theorem markPlace_and (rw : Bool) (m : Memory) (hp : Aligned p.address) (hx : Aligned x)
    {mask : UInt32} (h : dfUsed &&& mask = 0) (h' : dfModified &&& mask = 0) :
    read32 (markPlace rw m p) x &&& mask = read32 m x &&& mask := by
  rw [read32_markPlace rw m hp hx]
  split_ifs with hxp
  · rw [marked_and h h', hxp.2]
  · rfl

theorem markAll_grows (rw : Bool) (h : ∀ p ∈ places, Aligned p.address) (m : Memory) :
    Grows m (markAll rw m places) := by
  induction places generalizing m with
  | nil => exact .refl m
  | cons p places ih =>
    exact (markPlace_grows rw m (h p (List.mem_cons_self ..))).trans
      (ih (fun q hq => h q (List.mem_cons_of_mem _ hq)) _)

/-- Every valid descriptor is marked as used. -/
theorem markAll_used (rw : Bool) (h : ∀ p ∈ places, Aligned p.address) (m : Memory)
    (hp : p ∈ places) (hind : p.indirect = false)
    (hvalid : read32 m p.address &&& dfDt ≠ dfDtInvalid) :
    read32 (markAll rw m places) p.address &&& dfUsed ≠ 0 := by
  induction places generalizing m with
  | nil => cases hp
  | cons q places ih =>
    have hq := h q (List.mem_cons_self ..)
    have hrest : ∀ p ∈ places, Aligned p.address := fun p hp => h p (List.mem_cons_of_mem _ hp)
    have hpa := h p hp
    rcases List.mem_cons.1 hp with rfl | hp
    · refine markAll_grows rw hrest _ _ hpa _ ?_
      rw [read32_markPlace rw m hq hpa, if_pos ⟨hind, rfl⟩, marked, if_neg hvalid]
      refine or_and_ne_zero ?_
      rw [UInt32.or_comm]
      exact or_and_ne_zero (by decide)
    · refine ih hrest _ hp ?_
      rwa [markPlace_and rw m hq hpa (by decide) (by decide)]

/-- A page that is written is marked as modified, unless its own descriptor protects it. -/
theorem markAll_modified (h : ∀ p ∈ places, Aligned p.address) (m : Memory) (hp : p ∈ places)
    (hind : p.indirect = false) (hpage : read32 m p.address &&& dfDt = dfDtPage)
    (hwp : read32 m p.address &&& dfWp = 0) :
    read32 (markAll false m places) p.address &&& dfModified ≠ 0 := by
  induction places generalizing m with
  | nil => cases hp
  | cons q places ih =>
    have hq := h q (List.mem_cons_self ..)
    have hrest : ∀ p ∈ places, Aligned p.address := fun p hp => h p (List.mem_cons_of_mem _ hp)
    have hpa := h p hp
    rcases List.mem_cons.1 hp with rfl | hp
    · refine markAll_grows false hrest _ _ hpa _ ?_
      rw [read32_markPlace false m hq hpa, if_pos ⟨hind, rfl⟩, marked, hpage,
        if_neg (by decide : ¬ dfDtPage = dfDtInvalid), if_pos ⟨rfl, rfl, hwp⟩, UInt32.or_comm]
      exact or_and_ne_zero (by decide)
    · refine ih hrest _ hp ?_ ?_
      · rwa [markPlace_and false m hq hpa (by decide) (by decide)]
      · rwa [markPlace_and false m hq hpa (by decide) (by decide)]

/-- Nothing else is marked as modified. -/
theorem modified_markAll (h : ∀ p ∈ places, Aligned p.address) (m : Memory) (hx : Aligned x)
    (hbit : read32 (markAll rw m places) x &&& dfModified ≠ 0) :
    read32 m x &&& dfModified ≠ 0 ∨ ∃ p ∈ places, p.indirect = false ∧ p.address = x ∧ rw = false ∧
      read32 m x &&& dfDt = dfDtPage ∧ read32 m x &&& dfWp = 0 := by
  induction places generalizing m with
  | nil => exact .inl hbit
  | cons q places ih =>
    have hq := h q (List.mem_cons_self ..)
    have hrest : ∀ p ∈ places, Aligned p.address := fun p hp => h p (List.mem_cons_of_mem _ hp)
    rcases ih hrest _ hbit with hbit' | ⟨p, hp, hind, hpx, hrw, hpage, hwp⟩
    · rw [read32_markPlace rw m hq hx] at hbit'
      split_ifs at hbit' with hqx
      · unfold marked at hbit'
        split_ifs at hbit' with hinvalid hmod
        · exact .inl (hqx.2 ▸ hbit')
        · obtain ⟨hpage, hrw, hwp⟩ := hmod
          exact .inr ⟨q, List.mem_cons_self .., hqx.1, hqx.2.symm, hrw, hqx.2 ▸ hpage, hqx.2 ▸ hwp⟩
        · rw [UInt32.or_zero, or_and_of_disjoint (show dfUsed &&& dfModified = 0 by decide)] at hbit'
          exact .inl (hqx.2 ▸ hbit')
      · exact .inl hbit'
    · rw [markPlace_and rw m hq hx (by decide) (by decide)] at hpage hwp
      exact .inr ⟨p, List.mem_cons_of_mem _ hp, hind, hpx, hrw, hpage, hwp⟩

end

/-! ## The end of a walk -/

/-- The page descriptor among the descriptors of a walk. -/
structure IsPage (m : Memory) (p : Place) : Prop where
  direct : p.indirect = false
  type : read32 m p.address &&& dfDt = dfDtPage

section
variable {r : Registers} {error : UInt32 → Bool} {fc : UInt32} {limit fuel : Nat} {w v : Walk}
  {p : Place} {rw sideEffects : Bool}

theorem stops_of_resolved (h : w.resolved = true) : w.stops limit = true := by
  rw [Walk.stops, h, Bool.true_or, Bool.true_or]

theorem walkStep_ended (h : w.type = dfDtInvalid ∨ w.type = dfDtPage) :
    (walkStep r error fc rw sideEffects w).resolved = true ∧
      (walkStep r error fc rw sideEffects w).memory = w.memory ∧
      (walkStep r error fc rw sideEffects w).level = w.level := by
  rcases h with h | h
  · rw [walkStep_invalid h]
    exact ⟨rfl, rfl, rfl⟩
  · rw [walkStep_page h]
    exact ⟨rfl, rfl, rfl⟩

theorem trail_ended (h : w.type = dfDtInvalid ∨ w.type = dfDtPage) :
    trail r error fc limit fuel w = [] := by
  cases fuel with
  | zero => rfl
  | succ fuel =>
    rw [trail, stepPlaces, if_pos h, if_pos (stops_of_resolved (walkStep_ended h).1), List.append_nil]

/-- The loop after a page descriptor or an invalid one. -/
theorem walkLoop_ended (fuel : Nat) (h : w.type = dfDtInvalid ∨ w.type = dfDtPage) :
    walkLoop r error fc rw sideEffects limit fuel w = w ∧ fuel = 0 ∨
      walkLoop r error fc rw sideEffects limit fuel w = walkStep r error fc rw sideEffects w ∧
        0 < fuel := by
  cases fuel with
  | zero => exact .inl ⟨rfl, rfl⟩
  | succ fuel =>
    rw [walkLoop_succ, if_pos (stops_of_resolved (walkStep_ended h).1)]
    exact .inr ⟨rfl, fuel.succ_pos⟩

/-- An iteration without side effects reads the descriptor `q`. -/
structure Reads (r : Registers) (error : UInt32 → Bool) (fc : UInt32) (v : Walk) (q : Place) :
    Prop where
  valid : v.type ≠ dfDtInvalid
  table : v.type ≠ dfDtPage
  places : ∃ pre, stepPlaces r error fc v = pre ++ [q] ∧ ∀ p ∈ pre, p.indirect = true
  direct : q.indirect = false
  type : (walkStep r error fc true false v).type = read32 v.memory q.address &&& dfDt
  memory : (walkStep r error fc true false v).memory = v.memory
  resolved : (walkStep r error fc true false v).resolved = v.resolved
  level : (walkStep r error fc true false v).level =
    v.level + (stepPlaces r error fc v).length
  status : (walkStep r error fc true false v).result.status =
    statusAll v.memory fc v.result.status (stepPlaces r error fc v)

theorem Reads.length_pos {q : Place} (h : Reads r error fc v q) :
    0 < (stepPlaces r error fc v).length := by
  obtain ⟨pre, hplaces, -⟩ := h.places
  rw [hplaces, List.length_append]
  exact Nat.lt_of_lt_of_le Nat.one_pos (Nat.le_add_left _ _)

theorem Answers.step (h : Answers error (trail r error fc limit (fuel + 1) v)) :
    Answers error (stepPlaces r error fc v) := by
  intro q hq
  rw [trail] at h
  exact h q (List.mem_append_left _ hq)

theorem Answers.rest (h : Answers error (trail r error fc limit (fuel + 1) v))
    (hstop : (walkStep r error fc true false v).stops limit = false) :
    Answers error (trail r error fc limit fuel (walkStep r error fc true false v)) := by
  intro q hq
  rw [trail, if_neg (by rw [hstop]; exact Bool.false_ne_true)] at h
  exact h q (List.mem_append_right _ hq)

/-- Where a descriptor of a trail is: it is the one that the first iteration reads, or it comes
    after that, which then leads on. -/
theorem mem_trail (herror : Answers error (trail r error fc limit (fuel + 1) v))
    (hp : p ∈ trail r error fc limit (fuel + 1) v) (hind : p.indirect = false) :
    ∃ q, Reads r error fc v q ∧
      (p = q ∨
        (walkStep r error fc true false v).stops limit = false ∧
          p ∈ trail r error fc limit fuel (walkStep r error fc true false v) ∧
          (walkStep r error fc true false v).type ≠ dfDtInvalid ∧
          (walkStep r error fc true false v).type ≠ dfDtPage) := by
  by_cases hended : v.type = dfDtInvalid ∨ v.type = dfDtPage
  · rw [trail_ended hended] at hp
    cases hp
  rw [not_or] at hended
  obtain ⟨h0, h1⟩ := hended
  rw [trail] at hp
  cases walkStep_read true false h0 h1 herror.step with
  | failed hplaces hmemory hresolved =>
    rw [hplaces, if_pos (stops_of_resolved hresolved)] at hp
    cases hp
  | descriptor pre q hplaces hpre hq htype hmemory hresolved hlevel hstatus =>
    refine ⟨q, ⟨h0, h1, ⟨pre, hplaces, hpre⟩, hq, htype, hmemory, hresolved, hlevel, hstatus⟩, ?_⟩
    rcases List.mem_append.1 hp with hp | hp
    · rw [hplaces] at hp
      rcases List.mem_append.1 hp with hp | hp
      · rw [hpre p hp] at hind
        cases hind
      · exact .inl (List.mem_singleton.1 hp)
    · right
      by_cases hstop : (walkStep r error fc true false v).stops limit = true
      · rw [if_pos hstop] at hp
        cases hp
      · rw [if_neg hstop] at hp
        refine ⟨by simpa using hstop, hp, fun h => ?_, fun h => ?_⟩
        · rw [trail_ended (.inl h)] at hp
          cases hp
        · rw [trail_ended (.inr h)] at hp
          cases hp

theorem trail_succ_stop (hstop : (walkStep r error fc true false v).stops limit = true) :
    trail r error fc limit (fuel + 1) v = stepPlaces r error fc v := by
  rw [trail, if_pos hstop, List.append_nil]

theorem trail_succ_go (hstop : (walkStep r error fc true false v).stops limit = false) :
    trail r error fc limit (fuel + 1) v =
      stepPlaces r error fc v ++ trail r error fc limit fuel (walkStep r error fc true false v) := by
  rw [trail, hstop, if_neg Bool.false_ne_true]

/-- The trail ends with a page descriptor. -/
theorem trail_succ_page {q : Place} (h : Reads r error fc v q)
    (hq : read32 v.memory q.address &&& dfDt = dfDtPage) :
    trail r error fc limit (fuel + 1) v = stepPlaces r error fc v := by
  cases hstop : (walkStep r error fc true false v).stops limit with
  | true => exact trail_succ_stop hstop
  | false => rw [trail_succ_go hstop, trail_ended (.inr (h.type.trans hq)), List.append_nil]

theorem page_last (herror : Answers error (trail r error fc limit fuel v))
    (hp : p ∈ trail r error fc limit fuel v) (hpage : IsPage v.memory p) :
    ∃ pre, trail r error fc limit fuel v = pre ++ [p] ∧ ∀ q ∈ pre, ¬ IsPage v.memory q := by
  induction fuel generalizing v with
  | zero => cases hp
  | succ fuel ih =>
    obtain ⟨q, hreads, rfl | ⟨hstop, hp', hvalid, htable⟩⟩ := mem_trail herror hp hpage.direct
    · obtain ⟨pre, hplaces, hpre⟩ := hreads.places
      refine ⟨pre, (trail_succ_page hreads hpage.type).trans hplaces, fun q' hq' h => ?_⟩
      have hdirect := h.direct
      rw [hpre q' hq'] at hdirect
      cases hdirect
    · have hpage' : IsPage (walkStep r error fc true false v).memory p := by
        rw [hreads.memory]
        exact hpage
      obtain ⟨pre, htrail, hpre⟩ := ih (herror.rest hstop) hp' hpage'
      obtain ⟨pre', hplaces, hpre'⟩ := hreads.places
      refine ⟨stepPlaces r error fc v ++ pre, ?_, fun q' hq' h => ?_⟩
      · rw [trail_succ_go hstop, htrail, List.append_assoc]
      · rcases List.mem_append.1 hq' with hq' | hq'
        · rw [hplaces] at hq'
          rcases List.mem_append.1 hq' with hq' | hq'
          · have hdirect := h.direct
            rw [hpre' q' hq'] at hdirect
            cases hdirect
          · rw [List.mem_singleton.1 hq'] at h
            exact htable (hreads.type.trans h.type)
        · rw [hreads.memory] at hpre
          exact hpre q' hq' h

/-- A walk that reads a page descriptor ends with what its descriptors say, and finds the page
    unless that takes seven of them. -/
theorem walkLoop_page (herror : Answers error (trail r error fc 7 fuel v))
    (hp : p ∈ trail r error fc 7 fuel v) (hpage : IsPage v.memory p) (hresolved : v.resolved = false)
    (hfuel : 7 ≤ fuel + v.level) :
    (walkLoop r error fc true false 7 fuel v).result.status =
        statusAll v.memory fc v.result.status (trail r error fc 7 fuel v) ∧
      (v.level + (trail r error fc 7 fuel v).length < 7 →
        (walkLoop r error fc true false 7 fuel v).resolved = true) := by
  induction fuel generalizing v with
  | zero => cases hp
  | succ fuel ih =>
    obtain ⟨q, hreads, rfl | ⟨hstop, hp', hvalid, htable⟩⟩ := mem_trail herror hp hpage.direct
    · rw [walkLoop_succ, trail_succ_page hreads hpage.type, ← hreads.status, ← hreads.level]
      have htype := hreads.type.trans hpage.type
      have hpos := hreads.length_pos
      have hlevel := hreads.level
      generalize hw : walkStep r error fc true false v = w at htype hlevel
      by_cases hstop : w.stops 7 = true
      · rw [if_pos hstop]
        refine ⟨rfl, fun hlt => ?_⟩
        have hres := hreads.resolved.trans hresolved
        rw [hw] at hres
        simp only [Walk.stops, hres, Bool.false_or, Bool.or_self, decide_eq_true_eq] at hstop
        omega
      · rw [if_neg hstop]
        rcases walkLoop_ended fuel (.inr htype) with ⟨-, h0⟩ | ⟨hloop, -⟩
        · simp only [Walk.stops, Bool.not_eq_true, Bool.or_eq_false_iff, decide_eq_false_iff_not] at hstop
          omega
        · rw [hloop, walkStep_page htype]
          exact ⟨rfl, fun _ => rfl⟩
    · have hpage' : IsPage (walkStep r error fc true false v).memory p := by
        rw [hreads.memory]
        exact hpage
      have hpos := hreads.length_pos
      have hlevel := hreads.level
      obtain ⟨hstatus, hres⟩ := ih (herror.rest hstop) hp' hpage' (hreads.resolved.trans hresolved)
        (by omega)
      rw [walkLoop_succ, hstop, if_neg Bool.false_ne_true, trail_succ_go hstop, statusAll_append,
        ← hreads.status, ← hreads.memory]
      refine ⟨hstatus, fun hlt => hres ?_⟩
      rw [List.length_append] at hlt
      omega

/-- A walk that reads an invalid descriptor does not find a page. -/
theorem walkLoop_invalid (herror : Answers error (trail r error fc 7 fuel v))
    (hp : p ∈ trail r error fc 7 fuel v) (hind : p.indirect = false)
    (hinvalid : read32 v.memory p.address &&& dfDt = dfDtInvalid) (hresolved : v.resolved = false) :
    (walkLoop r error fc true false 7 fuel v).result.status &&& srInvalid ≠ 0 ∨
      (walkLoop r error fc true false 7 fuel v).resolved = false := by
  induction fuel generalizing v with
  | zero => cases hp
  | succ fuel ih =>
    obtain ⟨q, hreads, rfl | ⟨hstop, hp', hvalid, htable⟩⟩ := mem_trail herror hp hind
    · rw [walkLoop_succ]
      have htype := hreads.type.trans hinvalid
      have hres := hreads.resolved.trans hresolved
      by_cases hstop : (walkStep r error fc true false v).stops 7 = true
      · rw [if_pos hstop]
        exact .inr hres
      · rw [if_neg hstop]
        rcases walkLoop_ended fuel (.inl htype) with ⟨hloop, -⟩ | ⟨hloop, -⟩
        · rw [hloop]
          exact .inr hres
        · rw [hloop, walkStep_invalid htype]
          left
          show (_ ||| srInvalid) &&& srInvalid ≠ 0
          rw [or_and_distrib]
          intro h
          have hbit := congrArg (fun x => x.toBitVec.getLsbD 10) h
          simp [srInvalid] at hbit
    · rw [walkLoop_succ, hstop, if_neg Bool.false_ne_true]
      exact ih (herror.rest hstop) hp' (by rw [hreads.memory]; exact hinvalid)
        (hreads.resolved.trans hresolved)

end

/-! ## Walks with side effects -/

section
variable {r : Registers} {error : UInt32 → Bool} {a b fc : UInt32} {limit fuel : Nat} {w v : Walk}
  {p : Place} {rw sideEffects : Bool} {visited : Place → Prop} {m : Memory}

theorem stepPlaces_aligned (ha : Aligned v.table) (hp : p ∈ stepPlaces r error fc v) :
    Aligned p.address := by
  have haddress : Aligned (descriptorAddress r fc v) := aligned_index ha _ _
  unfold stepPlaces at hp
  split_ifs at hp with hended
  · cases hp
  · unfold Walk.places at hp
    simp only [readDescriptor_eq] at hp
    generalize (if (v.type == dfDtTable8Byte) = true then _ else _ : UInt32) = entry at hp
    split_ifs at hp
    · cases hp
    · rcases List.mem_cons.1 hp with rfl | hp
      · exact haddress
      · cases List.mem_singleton.1 hp
        exact aligned_and rfl
    · cases List.mem_singleton.1 hp
      exact haddress

theorem trail_aligned (h : Alike r a a fuel v v) (hfuel : fuel ≤ 8) (hsize : PageSize r)
    (hp : p ∈ trail r error fc limit fuel v) : Aligned p.address := by
  induction fuel generalizing v with
  | zero => cases hp
  | succ fuel ih =>
    have hsame : SameWords (fun _ => True) v.memory v.memory := .refl _ _
    obtain ⟨-, hstep⟩ := h.step error fc true true false false (by omega) hsize (SamePage.refl _ a)
      hsame rfl fun _ _ => trivial
    rw [trail] at hp
    rcases List.mem_append.1 hp with hp | hp
    · exact stepPlaces_aligned h.aligned hp
    · split_ifs at hp
      · cases hp
      · exact ih hstep (by omega) hp

/-- The marks of one iteration. -/
theorem walkStep_marks (rw : Bool) (herror : Answers error (stepPlaces r error fc w)) :
    (walkStep r error fc rw true w).memory = markAll rw w.memory (stepPlaces r error fc w) := by
  by_cases hended : w.type = dfDtInvalid ∨ w.type = dfDtPage
  · rw [(walkStep_ended hended).2.1, stepPlaces, if_pos hended]
    rfl
  rw [not_or] at hended
  cases walkStep_read rw true hended.1 hended.2 herror with
  | failed hplaces hmemory =>
    rw [hplaces, hmemory]
    rfl
  | descriptor pre q hplaces hpre hq htype hmemory => exact hmemory

/-- A walk with side effects marks the descriptors of the trail through the tables as they were. -/
theorem walkLoop_marks (rw : Bool) (h : Alike r a b fuel w v) (hfuel : fuel ≤ 8) (hsize : PageSize r)
    (hab : SamePage (pmmuPageShift r) a b) (hu : Unshared visited)
    (hm : MarkedIn visited m w.memory) (hv : v.memory = m)
    (hp : ∀ p ∈ trail r error fc limit fuel v, visited p)
    (herror : Answers error (trail r error fc limit fuel v)) :
    (walkLoop r error fc rw true limit fuel w).memory =
      markAll rw w.memory (trail r error fc limit fuel v) := by
  induction fuel generalizing w v with
  | zero => rfl
  | succ fuel ih =>
    have hp' : ∀ p ∈ stepPlaces r error fc v, visited p := by
      intro p hpp
      rw [trail] at hp
      exact hp p (List.mem_append_left _ hpp)
    obtain ⟨hplaces, hstep⟩ := h.step error fc rw true true false (by omega) hsize hab
      (hm.sameWords hu) hv hp'
    obtain ⟨hmarks, hmem⟩ := h.step_marked rw true true hab hu hm hv hp'
    have hmemory : (walkStep r error fc rw true w).memory =
        markAll rw w.memory (stepPlaces r error fc w) := walkStep_marks rw (hplaces ▸ herror.step)
    rw [hplaces] at hmemory
    rw [walkLoop_succ, hstep.stops]
    cases hstop : (walkStep r error fc true false v).stops limit with
    | true => rw [if_pos rfl, trail_succ_stop hstop, hmemory]
    | false =>
      rw [trail_succ_go hstop] at hp ⊢
      rw [if_neg Bool.false_ne_true, markAll_append, ← hmemory]
      exact ih hstep (by omega) hmarks hmem (fun p hpp => hp p (List.mem_append_right _ hpp))
        (herror.rest hstop)

end

/-! ## Statuses -/

section
variable {r : Registers} {error : UInt32 → Bool} {a b fc : UInt32} {limit fuel : Nat} {w v : Walk}
  {p : Place} {rw sideEffects : Bool} {visited : Place → Prop} {m : Memory}

/-- The flags of a descriptor under a mask. -/
theorem statusFromDescriptor_and (type first : UInt32) (isLong : Bool) (fc : UInt32)
    (status mask : UInt16) :
    pmmuStatusFromDescriptor type first isLong fc status &&& mask =
      status &&& mask ||| flag (type == dfDtPage && first &&& dfModified != 0) srModified &&& mask |||
        flag (type != dfDtInvalid && first &&& dfWp != 0) srWriteProtect &&& mask |||
        flag (isLong && fc &&& 4 == 0 && first &&& dfSupervisor != 0) srSupervisorOnly &&& mask := by
  unfold pmmuStatusFromDescriptor
  rw [or_and_distrib, or_and_distrib, or_and_distrib]

theorem flag_and_eq_zero {bit mask : UInt16} (h : bit &&& mask = 0) (set : Bool) :
    flag set bit &&& mask = 0 := by
  cases set with
  | false => exact UInt16.zero_and
  | true => exact h

theorem status_modified {type first : UInt32} {isLong : Bool} {status : UInt16}
    (h : pmmuStatusFromDescriptor type first isLong fc status &&& srModified ≠ 0) :
    status &&& srModified ≠ 0 ∨ type = dfDtPage ∧ first &&& dfModified ≠ 0 := by
  rw [statusFromDescriptor_and,
    flag_and_eq_zero (show srWriteProtect &&& srModified = 0 from rfl),
    flag_and_eq_zero (show srSupervisorOnly &&& srModified = 0 from rfl), UInt16.or_zero,
    UInt16.or_zero] at h
  by_cases hset : (type == dfDtPage && first &&& dfModified != 0) = true
  · right
    simpa using hset
  · left
    rw [Bool.not_eq_true] at hset
    rw [hset] at h
    simpa [flag] using h

/-- A walk says that a page was modified where its descriptor does. -/
theorem walkLoop_modified (h : Alike r a b fuel w v) (hfuel : fuel ≤ 8) (hsize : PageSize r)
    (hab : SamePage (pmmuPageShift r) a b) (hu : Unshared visited)
    (hm : MarkedIn visited m w.memory) (hv : v.memory = m)
    (hvisited : ∀ p ∈ trail r error fc limit fuel v, visited p)
    (herror : Answers error (trail r error fc limit fuel v)) (hp : p ∈ trail r error fc limit fuel v)
    (hpage : IsPage m p) (hstart : w.result.status &&& srModified = 0)
    (hmod : (walkLoop r error fc rw sideEffects limit fuel w).result.status &&& srModified ≠ 0) :
    read32 (walkLoop r error fc rw sideEffects limit fuel w).memory p.address &&& dfModified ≠ 0 := by
  induction fuel generalizing w v with
  | zero => cases hp
  | succ fuel ih =>
    subst hv
    obtain ⟨q, hreads, hcases⟩ := mem_trail herror hp hpage.direct
    have hvisited' : ∀ p ∈ stepPlaces r error fc v, visited p := by
      intro p hpp
      rw [trail] at hvisited
      exact hvisited p (List.mem_append_left _ hpp)
    obtain ⟨hplaces, hstep⟩ := h.step error fc rw true sideEffects false (by omega) hsize hab
      (hm.sameWords hu) rfl hvisited'
    obtain ⟨hmarks, hmem⟩ := h.step_marked rw true sideEffects hab hu hm rfl hvisited'
    obtain ⟨pre, hpre, hindirect⟩ := hreads.places
    have haligned : ∀ p ∈ stepPlaces r error fc w, Aligned p.address := by
      intro p hpp
      rw [hplaces] at hpp
      exact stepPlaces_aligned h.aligned hpp
    have hw0 : w.type ≠ dfDtInvalid := h.type ▸ hreads.valid
    have hw1 : w.type ≠ dfDtPage := h.type ▸ hreads.table
    cases walkStep_read rw sideEffects hw0 hw1 (hplaces ▸ herror.step) with
    | failed hnil =>
      rw [hplaces, hpre] at hnil
      simp at hnil
    | descriptor pre' q' hplaces' hpre' hq' htype hmemory hres hlevel hstatus =>
      obtain rfl : q' = q := by
        rw [hplaces, hpre] at hplaces'
        exact (List.singleton_inj.1 (List.append_inj' hplaces' rfl).2).symm
      have hadded : (walkStep r error fc rw sideEffects w).result.status =
          pmmuStatusFromDescriptor (read32 w.memory q'.address &&& dfDt) (read32 w.memory q'.address)
            q'.isLong fc w.result.status := by
        rw [hstatus, hplaces', statusAll_append, statusAll_indirect hpre']
        show placeStatus _ _ _ _ = _
        rw [placeStatus, hq', if_neg Bool.false_ne_true]
      rcases hcases with rfl | ⟨hstop, hp', hvalid, htable⟩
      · -- the page descriptor ends the walk
        have htypePage : (walkStep r error fc rw sideEffects w).type = dfDtPage := by
          have ha : Aligned p.address := haligned p (by rw [hplaces']; simp)
          rw [htype, (hm.kept ha).type]
          exact hpage.type
        obtain ⟨hlast, hlastMemory⟩ :
            (walkLoop r error fc rw sideEffects limit (fuel + 1) w).result.status =
                (walkStep r error fc rw sideEffects w).result.status ∧
              (walkLoop r error fc rw sideEffects limit (fuel + 1) w).memory =
                (walkStep r error fc rw sideEffects w).memory := by
          rw [walkLoop_succ]
          by_cases hstop : (walkStep r error fc rw sideEffects w).stops limit = true
          · rw [if_pos hstop]
            exact ⟨rfl, rfl⟩
          · rw [if_neg hstop]
            rcases walkLoop_ended fuel (.inr htypePage) with ⟨hloop, -⟩ | ⟨hloop, -⟩
            · rw [hloop]
              exact ⟨rfl, rfl⟩
            · rw [hloop, walkStep_page htypePage]
              exact ⟨rfl, rfl⟩
        rw [hlast, hadded] at hmod
        rw [hlastMemory]
        rcases status_modified hmod with hbit | ⟨-, hbit⟩
        · exact absurd hstart hbit
        · rw [hmemory]
          split_ifs
          · exact markAll_grows rw haligned _ _ (haligned p (by rw [hplaces']; simp)) _ hbit
          · exact hbit
      · have hnot : (walkStep r error fc rw sideEffects w).result.status &&& srModified = 0 := by
          by_contra hbit
          rw [hadded] at hbit
          rcases status_modified hbit with hold | ⟨htype', -⟩
          · exact hold hstart
          · exact htable (hstep.type.symm.trans (htype.trans htype'))
        have hstop' : (walkStep r error fc rw sideEffects w).stops limit = false :=
          (hstep.stops limit).trans hstop
        rw [walkLoop_succ, hstop', if_neg Bool.false_ne_true] at hmod ⊢
        rw [trail_succ_go hstop] at hvisited
        exact ih hstep (by omega) hmarks hmem (fun p hpp => hvisited p (List.mem_append_right _ hpp))
          (herror.rest hstop) hp' hnot hmod

end

end CuteMac.Cpu

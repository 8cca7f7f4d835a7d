/-
  The two ends of the screen in the palette of the emulator's card.

  * `Painted`: a card with the last colour that was written to each entry;
  * `Ends`: the ends of the screen are white and black, and the other entries hold their
    colours;
  * `Sound`: a write that leaves them so at every depth that can be selected;
  * `Kept`, `kept_write`: what sound writes keep;
  * `ends_iff`: the ends stay at every depth exactly where the writes are sound.

  The card protects the end of the depth that is selected while a colour is completed, and
  not those of the other depths.
-/
import CuteMac.Video.AcceptedCards
import Mathlib.Logic.Function.Basic

namespace CuteMac.Video

open CuteMacCard

namespace CuteMacVideoCard

/-! ## Colours and writes -/

/-- The colour that a write of its last component completes. -/
def completed (s : CuteMacVideoCard) (value : UInt8) : UInt32 :=
  let latch := s.paletteLatch.setIfInBounds 2 value
  rgbColor (latch.get 0) (latch.get 1) (latch.get 2)

/-- A card, with the last colour of each entry. -/
structure Painted where
  card : CuteMacVideoCard
  colours : UInt8 → Option UInt32

namespace Painted

def start (s : CuteMacVideoCard) : Painted := { card := s.reset, colours := fun _ => none }

/-- A write to the card; the colours are those of complete writes, whether the card takes them or
    not. -/
def write (p : Painted) (offset : UInt32) (value : UInt8) : Option Painted :=
  (p.card.write8 offset value).map fun card =>
    { card := card
      colours :=
        if IsBlue offset then
          Function.update p.colours p.card.paletteAddress (some (p.card.completed value))
        else p.colours }

def run (p : Painted) (ws : List (UInt32 × UInt8)) : Option Painted :=
  ws.foldlM (fun p w => p.write w.1 w.2) p

/-- Another depth is selected. -/
def select (p : Painted) (depth : Int32) : Painted := { p with card := { p.card with depth := depth } }

/-- The ends of the screen are white and black, and the other entries hold the last colour that was
    written to them. -/
structure Ends (p : Painted) : Prop where
  white : p.card.entry 0 = white
  black : p.card.entry (indexedEndpoint p.card.depth) = black
  other : ∀ a colour, a ≠ 0 → a ≠ indexedEndpoint p.card.depth → p.colours a = some colour →
    p.card.entry a = colour

/-- The indexed depths that the guest can select. -/
def Selectable (p : Painted) (depth : Int32) : Prop :=
  depth ∈ depths ∧ depth ≤ 8 ∧ depth ≤ p.card.maximumDepth

instance (p : Painted) (depth : Int32) : Decidable (p.Selectable depth) :=
  inferInstanceAs (Decidable (_ ∧ _ ∧ _))

/-- The entry is an end at all the depths or at none. -/
def Agreed (p : Painted) (a : UInt8) : Prop :=
  ∀ d d', p.Selectable d → p.Selectable d' → (indexedEndpoint d = a ↔ indexedEndpoint d' = a)

/-- A colour that goes to the end of some of the depths only is black. -/
def Sound (p : Painted) (offset : UInt32) (value : UInt8) : Prop :=
  IsBlue offset → p.card.completed value = black ∨ p.Agreed p.card.paletteAddress

/-- The writes are sound, each in the state it arrives in. -/
def SoundRun : Painted → List (UInt32 × UInt8) → Prop
  | _, [] => True
  | p, w :: ws => p.Sound w.1 w.2 ∧ ∀ p', p.write w.1 w.2 = some p' → SoundRun p' ws

/-- In every state of the run, and at every depth that can be selected there, the ends are kept. -/
def KeepsEnds (p : Painted) (ws : List (UInt32 × UInt8)) : Prop :=
  ∀ pre post p', ws = pre ++ post → p.run pre = some p' → ∀ d, p'.Selectable d → (p'.select d).Ends

end Painted

/-! ## What sound writes keep -/

/-- The state that sound writes keep. -/
structure Kept (p : Painted) : Prop where
  depth : p.card.depth ∈ depths ∧ p.card.depth ≤ p.card.maximumDepth
  white : p.card.entry 0 = white
  black : ∀ d, p.Selectable d → p.card.entry (indexedEndpoint d) = black
  other : ∀ a colour, a ≠ 0 → (∃ d, p.Selectable d ∧ indexedEndpoint d ≠ a) →
    p.colours a = some colour → p.card.entry a = colour

section
variable {p p' : Painted} {s s' : CuteMacVideoCard} {offset : UInt32} {value : UInt8}

theorem entry_writeBlue (s : CuteMacVideoCard) (value a : UInt8) :
    (s.writeBlue value).entry a =
      if a = s.paletteAddress ∧ a ≠ 0 ∧ a ≠ indexedEndpoint s.depth then s.completed value
      else s.entry a := by
  have hlt : a.toNat < 256 := a.toNat_lt
  unfold writeBlue entry completed
  dsimp only
  by_cases htaken : s.paletteAddress ≠ 0 ∧ s.paletteAddress ≠ indexedEndpoint s.depth
  · rw [if_pos htaken]
    show (s.palette.set s.paletteAddress.toNat _ _)[a.toNat] = _
    rw [Vector.getElem_set]
    by_cases ha : a = s.paletteAddress
    · rw [if_pos (congrArg UInt8.toNat ha.symm), if_pos ⟨ha, ha ▸ htaken⟩]
    · rw [if_neg fun h => ha (UInt8.toNat_inj.1 h).symm, if_neg fun h => ha h.1]
      rfl
  · rw [if_neg htaken, if_neg fun h : a = s.paletteAddress ∧ a ≠ 0 ∧ a ≠ indexedEndpoint s.depth =>
      htaken (h.1 ▸ h.2)]

/-- A write that completes no colour leaves the palette. -/
theorem write8_palette (h : ¬ IsBlue offset) (hwrite : s.write8 offset value = some s') :
    s'.palette = s.palette ∧ s'.maximumDepth = s.maximumDepth ∧
      (s'.depth = s.depth ∨ s'.depth ∈ depths ∧ s'.depth ≤ s.maximumDepth) := by
  have hwritten := write8_written s offset value
  rw [hwrite] at hwritten
  generalize hr : some s' = r at hwritten
  cases hwritten with
  | mode =>
    obtain rfl := Option.some.inj hr
    unfold writeMode
    split
    · next depth hdepth =>
      split_ifs with hle
      · exact ⟨rfl, rfl, Or.inr ⟨List.mem_of_getElem? hdepth, hle⟩⟩
      · exact ⟨rfl, rfl, Or.inl rfl⟩
    · exact ⟨rfl, rfl, Or.inl rfl⟩
  | blue hblue => exact absurd hblue h
  | gray =>
    obtain ⟨vram, rfl, -⟩ := length_fillGrayScreen hr.symm
    exact ⟨rfl, rfl, Or.inl rfl⟩
  | command =>
    obtain rfl := Option.some.inj hr
    unfold writeCommand
    split_ifs <;> exact ⟨rfl, rfl, Or.inl rfl⟩
  | memory =>
    obtain ⟨vram, hvram, rfl⟩ := Option.map_eq_some_iff.1 hr.symm
    exact ⟨rfl, rfl, Or.inl rfl⟩
  | _ =>
    obtain rfl := Option.some.inj hr
    exact ⟨rfl, rfl, Or.inl rfl⟩

theorem write8_blue (h : IsBlue offset) : s.write8 offset value = some (s.writeBlue value) := by
  have hwritten := write8_written s offset value
  generalize s.write8 offset value = r at hwritten
  cases hwritten with
  | blue => rfl
  | nothing hnot => exact absurd h hnot
  | mode hnot => exact absurd h hnot
  | interrupt hnot => exact absurd h hnot
  | address hnot => exact absurd h hnot
  | latch hnot => exact absurd h hnot
  | gray hnot => exact absurd h hnot
  | command hnot => exact absurd h hnot
  | memory hnot => exact absurd h hnot

/-- The end of the selected depth is that of an indexed one. -/
theorem indexedEndpoint_selected (h : p.card.depth ∈ depths ∧ p.card.depth ≤ p.card.maximumDepth) :
    ∃ d, p.Selectable d ∧ indexedEndpoint d = indexedEndpoint p.card.depth := by
  by_cases hindexed : p.card.depth ≤ 8
  · exact ⟨p.card.depth, ⟨h.1, hindexed, h.2⟩, rfl⟩
  · have hdirect : ∀ d ∈ depths, ¬ d ≤ 8 → (8 : Int32) ≤ d ∧ indexedEndpoint 8 = indexedEndpoint d :=
      of_mem_depths (by decide)
    obtain ⟨hle, hsame⟩ := hdirect _ h.1 hindexed
    exact ⟨8, ⟨by decide, Int32.le_refl _, Int32.le_trans hle h.2⟩, hsame⟩

theorem endpoint_ne_zero (depth : Int32) : indexedEndpoint depth ≠ 0 := by
  unfold indexedEndpoint
  split_ifs <;> decide

theorem kept_blue (h : Kept p)
    (hsound : p.card.completed value = black ∨ p.Agreed p.card.paletteAddress) :
    Kept
      { card := p.card.writeBlue value
        colours :=
          Function.update p.colours p.card.paletteAddress (some (p.card.completed value)) } := by
  obtain ⟨d₀, hd₀, hend⟩ := indexedEndpoint_selected h.depth
  refine ⟨h.depth, ?_, fun d hd => ?_, fun a colour ha hfree hcolour => ?_⟩
  · rw [entry_writeBlue, if_neg fun hzero => hzero.2.1 rfl]
    exact h.white
  · rw [entry_writeBlue]
    split_ifs with htaken
    · rcases hsound with hblack | hagreed
      · exact hblack
      · exact absurd (hend.symm.trans ((hagreed d d₀ hd hd₀).1 htaken.1)) fun he =>
          htaken.2.2 (htaken.1.trans he.symm)
    · exact h.black d hd
  · rw [entry_writeBlue]
    replace hcolour : Function.update p.colours p.card.paletteAddress
      (some (p.card.completed value)) a = some colour := hcolour
    by_cases haddress : a = p.card.paletteAddress
    · have hcompleted : p.card.completed value = colour := by
        rw [haddress, Function.update_self] at hcolour
        exact Option.some.inj hcolour
      split_ifs with htaken
      · exact hcompleted
      · -- the end of the selected depth is not written, and is black before
        have hselected : indexedEndpoint d₀ = a := by
          by_contra hne
          exact htaken ⟨haddress, ha, fun he => hne (hend.trans he.symm)⟩
        rcases hsound with hblack | hagreed
        · rw [← hcompleted, hblack, ← hselected]
          exact h.black d₀ hd₀
        · obtain ⟨d, hd, hne⟩ := hfree
          exact absurd ((hagreed d₀ d hd₀ hd).1 (hselected.trans haddress)) fun he =>
            hne (he.trans haddress.symm)
    · rw [if_neg fun htaken => haddress htaken.1]
      rw [Function.update_of_ne haddress] at hcolour
      exact h.other a colour ha hfree hcolour

theorem kept_write (h : Kept p) (hsound : p.Sound offset value)
    (hwrite : p.write offset value = some p') : Kept p' := by
  obtain ⟨card, hcard, rfl⟩ := Option.map_eq_some_iff.1 hwrite
  by_cases hblue : IsBlue offset
  · rw [write8_blue hblue] at hcard
    obtain rfl := Option.some.inj hcard
    rw [if_pos hblue]
    exact kept_blue h (hsound hblue)
  · obtain ⟨hpalette, hmaximum, hdepth⟩ := write8_palette hblue hcard
    rw [if_neg hblue]
    have hentry : ∀ a, card.entry a = p.card.entry a := fun a => by
      unfold entry
      rw [hpalette]
    have hselectable : ∀ d, Painted.Selectable { card := card, colours := p.colours } d → p.Selectable d :=
      fun d hd => ⟨hd.1, hd.2.1, hmaximum ▸ hd.2.2⟩
    refine ⟨?_, (hentry 0).trans h.white, fun d hd => (hentry _).trans (h.black d (hselectable d hd)),
      fun a colour ha ⟨d, hd, hne⟩ hcolour =>
        (hentry a).trans (h.other a colour ha ⟨d, hselectable d hd, hne⟩ hcolour)⟩
    show card.depth ∈ depths ∧ card.depth ≤ card.maximumDepth
    rw [hmaximum]
    rcases hdepth with hsame | hselected
    · rw [hsame]
      exact h.depth
    · exact hselected

theorem Kept.ends (h : Kept p) {d : Int32} (hd : p.Selectable d) : (p.select d).Ends :=
  ⟨h.white, h.black d hd, fun a colour ha hne hcolour => h.other a colour ha ⟨d, hd, hne.symm⟩ hcolour⟩

/-- A write that is not sound spoils the end of a depth, or drops a colour of another. -/
theorem spoiled (h : Kept p) (hsound : ¬ p.Sound offset value) :
    ∃ p', p.write offset value = some p' ∧ ∃ d, p'.Selectable d ∧ ¬ (p'.select d).Ends := by
  unfold Painted.Sound Painted.Agreed at hsound
  push Not at hsound
  obtain ⟨hblue, hcompleted, d, d', hd, hd', hends⟩ := hsound
  -- one depth ends at the entry, another one does not
  obtain ⟨d₁, d₂, hd₁, hd₂, hend₁, hend₂⟩ : ∃ d₁ d₂, p.Selectable d₁ ∧ p.Selectable d₂ ∧
      indexedEndpoint d₁ = p.card.paletteAddress ∧ indexedEndpoint d₂ ≠ p.card.paletteAddress := by
    rcases hends with ⟨h₁, h₂⟩ | ⟨h₁, h₂⟩
    · exact ⟨d, d', hd, hd', h₁, h₂⟩
    · exact ⟨d', d, hd', hd, h₂, h₁⟩
  have hzero : p.card.paletteAddress ≠ 0 := hend₁ ▸ endpoint_ne_zero d₁
  have hentry := entry_writeBlue p.card value p.card.paletteAddress
  refine ⟨{
    card := p.card.writeBlue value
    colours := Function.update p.colours p.card.paletteAddress (some (p.card.completed value)) }, ?_, ?_⟩
  · rw [Painted.write, write8_blue hblue, if_pos hblue]
    rfl
  · by_cases hselected : p.card.paletteAddress = indexedEndpoint p.card.depth
    · refine ⟨d₂, hd₂, fun hends => hcompleted ?_⟩
      rw [if_neg fun htaken => htaken.2.2 hselected, ← hend₁, h.black d₁ hd₁, hend₁] at hentry
      have hother := hends.other p.card.paletteAddress (p.card.completed value) hzero
        (fun he => hend₂ he.symm) (Function.update_self ..)
      exact hother.symm.trans hentry
    · refine ⟨d₁, hd₁, fun hends => hcompleted ?_⟩
      rw [if_pos ⟨rfl, hzero, hselected⟩] at hentry
      have hblack : (p.card.writeBlue value).entry (indexedEndpoint d₁) = black := hends.black
      rw [hend₁, hentry] at hblack
      exact hblack

theorem keepsEnds_cons (w : UInt32 × UInt8) (ws : List (UInt32 × UInt8)) :
    p.KeepsEnds (w :: ws) ↔ (∀ d, p.Selectable d → (p.select d).Ends) ∧
      ∀ p', p.write w.1 w.2 = some p' → p'.KeepsEnds ws := by
  constructor
  · intro h
    refine ⟨h [] (w :: ws) p rfl rfl, fun p' hp' pre post p'' hws hrun => ?_⟩
    refine h (w :: pre) post p'' (by rw [hws, List.cons_append]) ?_
    rw [Painted.run, List.foldlM_cons, hp']
    exact hrun
  · rintro ⟨hnow, hlater⟩ pre post p'' hws hrun
    cases pre with
    | nil =>
      obtain rfl := Option.some.inj hrun
      exact hnow
    | cons w' pre =>
      obtain ⟨rfl, htail⟩ := List.cons_eq_cons.1 hws
      rw [Painted.run, List.foldlM_cons] at hrun
      obtain ⟨p', hp', hrest⟩ := Option.bind_eq_some_iff.1 hrun
      exact hlater p' hp' pre post p'' htail hrest

theorem keepsEnds_iff (ws : List (UInt32 × UInt8)) :
    ∀ {p : Painted}, Kept p → (p.KeepsEnds ws ↔ p.SoundRun ws) := by
  induction ws with
  | nil =>
    intro p h
    refine iff_of_true (fun pre post p' hws hrun => ?_) trivial
    obtain ⟨rfl, -⟩ := List.append_eq_nil_iff.1 hws.symm
    obtain rfl := Option.some.inj hrun
    exact fun d hd => h.ends hd
  | cons w ws ih =>
    intro p h
    rw [keepsEnds_cons]
    constructor
    · rintro ⟨-, hlater⟩
      have hsound : p.Sound w.1 w.2 := by
        by_contra hnot
        obtain ⟨p', hp', d, hd, hends⟩ := spoiled h hnot
        exact hends (hlater p' hp' [] ws p' rfl rfl d hd)
      exact ⟨hsound, fun p' hp' => (ih (kept_write h hsound hp')).1 (hlater p' hp')⟩
    · rintro ⟨hsound, hlater⟩
      exact ⟨fun d hd => h.ends hd, fun p' hp' => (ih (kept_write h hsound hp')).2 (hlater p' hp')⟩

theorem entry_setEndpoints (palette : Vector UInt32 256) (a : UInt8) :
    (setEndpoints palette).get ⟨a.toNat, a.toNat_lt⟩ =
      if a = 255 then black
      else if a = 15 then black
      else if a = 3 then black
      else if a = 1 then black
      else if a = 0 then white
      else palette.get ⟨a.toNat, a.toNat_lt⟩ := by
  have hlt : a.toNat < 256 := a.toNat_lt
  have hindex : ∀ n : UInt8, n.toNat = a.toNat ↔ a = n := fun n =>
    ⟨fun h => (UInt8.toNat_inj.1 h).symm, fun h => congrArg UInt8.toNat h.symm⟩
  show (setEndpoints palette)[a.toNat] = _
  unfold setEndpoints
  simp only [Vector.getElem_setIfInBounds]
  simp only [← hindex]
  rfl

theorem kept_start (hmaximum : 1 ≤ s.maximumDepth) : Kept (Painted.start s) := by
  have hentry : ∀ a, (Painted.start s).card.entry a = _ := entry_setEndpoints s.palette
  refine ⟨⟨List.mem_cons_self, hmaximum⟩, ?_, fun d _ => ?_, fun _ _ _ _ h => by cases h⟩
  · rw [hentry]
    rfl
  · have hends : indexedEndpoint d = 1 ∨ indexedEndpoint d = 3 ∨ indexedEndpoint d = 15 ∨
        indexedEndpoint d = 255 := by
      unfold indexedEndpoint
      split_ifs <;> decide
    rw [hentry]
    rcases hends with he | he | he | he <;> rw [he] <;> rfl

end

/-- An entry that is the end of no depth can have any colour. -/
theorem agreed_of_free {p : Painted} {a : UInt8} (h : ∀ d, indexedEndpoint d ≠ a) : p.Agreed a :=
  fun d d' _ _ => iff_of_false (h d) (h d')

/-- Entry 1 is written at eight bits. -/
def repainted : List (UInt32 × UInt8) := [(0xe0000, 3), (0xe0002, 1), (0xe0005, 0x80)]

/-- Entry 1 is written at one bit. -/
def dropped : List (UInt32 × UInt8) := [(0xe0002, 1), (0xe0005, 0x80)]

theorem repainted_isSome :
    ((Painted.start (make 640 480 8 4096 false true [])).run repainted).isSome := by decide +kernel

theorem dropped_isSome :
    ((Painted.start (make 640 480 8 4096 false true [])).run dropped).isSome := by decide +kernel

end CuteMacVideoCard

end CuteMac.Video

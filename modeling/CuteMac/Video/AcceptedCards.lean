/-
  The cards of the video configurations that are accepted.

  * `ofDevice`: the card of a configuration;
  * `Input`, `step`: what happens to a card;
  * `Built`: what the card was built with stays as it is;
  * `screen_le`: the screen of every depth up to the configured one fits;
  * `fillGrayScreen_isSome`, `videoFrame_valid`: so it can be filled and shown;
  * `fits_iff`: the configurations whose cards fit.

  The configuration bounds the bytes of the screen, and the card its width and height: a
  configuration of a long narrow screen is accepted, and its card is another one.
-/
import CuteMac.Config.Configuration
import CuteMac.Lib.Machine
import CuteMac.Video.CuteMacVideoCard

namespace CuteMac.Video

open Config CuteMacCard

namespace CuteMacVideoCard

/-! ## The cards -/

/-- The card in the slot, which the accelerated card has within it. -/
def ofDevice (device : NuBusDeviceConfiguration) (declarationRom : List UInt8) : CuteMacVideoCard :=
  make device.width device.height device.depth device.vramKiB
    (device.type == .cuteMacVideo && device.acceleration) device.absolutePointer declarationRom

inductive Input where
  | write8 (offset : UInt32) (value : UInt8)
  | tick (cycles : Nat)
  | setHostPointerPosition (x y : Int16)
  | takePowerRequest
  | reset
  /-- the accelerator leaves other bytes in the memory -/
  | transfer (vram : Vram)

def step (s : CuteMacVideoCard) : Input → Option CuteMacVideoCard
  | .write8 offset value => s.write8 offset value
  | .tick cycles => some (s.tick cycles)
  | .setHostPointerPosition x y => some (s.setHostPointerPosition x y)
  | .takePowerRequest => some s.takePowerRequest.2
  | .reset => some s.reset
  | .transfer vram =>
    if vram.bytes.length = s.vram.bytes.length then some { s with vram := vram } else none

/-- The card of the size and the depth it was built with. -/
structure Built (w h d : Int32) (n : Nat) (s : CuteMacVideoCard) : Prop where
  width : s.width = w
  height : s.height = h
  maximumDepth : s.maximumDepth = d
  bytes : s.vram.bytes.length = n
  depth : s.depth ∈ depths
  depth_le : s.depth ≤ d

section
variable {w h d : Int32} {n : Nat} {s s' : CuteMacVideoCard}

/-- What holds of each depth in turn holds of all of them. -/
theorem of_mem_depths {P : Int32 → Prop} (h : P 1 ∧ P 2 ∧ P 4 ∧ P 8 ∧ P 16 ∧ P 32) :
    ∀ d ∈ depths, P d := by
  intro d hd
  obtain ⟨h1, h2, h4, h8, h16, h32⟩ := h
  simp only [depths, List.mem_cons, List.not_mem_nil, or_false] at hd
  rcases hd with rfl | rfl | rfl | rfl | rfl | rfl <;> assumption

theorem one_le_of_mem {depth : Int32} (h : depth ∈ depths) :
    1 ≤ depth.toInt ∧ depth.toInt ≤ 32 := by
  have hall : ∀ d ∈ depths, 1 ≤ d.toInt ∧ d.toInt ≤ 32 := of_mem_depths (by decide)
  exact hall depth h

/-- The stride of a screen that is not too wide, without overflows. -/
theorem stride_toInt {w d : Int32} (hw : 0 ≤ w.toInt ∧ w.toInt ≤ 4096) (hd : d ∈ depths) :
    ((w * d + 31) / 32 * 4).toInt = (w.toInt * d.toInt + 31) / 32 * 4 ∧
      0 ≤ w.toInt * d.toInt ∧ w.toInt * d.toInt ≤ 4096 * 32 := by
  obtain ⟨hd1, hd32⟩ := one_le_of_mem hd
  have hprod : 0 ≤ w.toInt * d.toInt := Int.mul_nonneg hw.1 (by omega)
  have hprod' : w.toInt * d.toInt ≤ 4096 * 32 := Int.mul_le_mul hw.2 hd32 (by omega) (by decide)
  have h31 : (31 : Int32).toInt = 31 := by decide
  have h32 : (32 : Int32).toInt = 32 := by decide
  have h4 : (4 : Int32).toInt = 4 := by decide
  have hmul : (w * d).toInt = w.toInt * d.toInt := by
    rw [Int32.toInt_mul]
    exact Int.bmod_eq_of_le (by omega) (by omega)
  have hadd : (w * d + 31).toInt = w.toInt * d.toInt + 31 := by
    rw [Int32.toInt_add, hmul, h31]
    exact Int.bmod_eq_of_le (by omega) (by omega)
  have hdiv : ((w * d + 31) / 32).toInt = (w.toInt * d.toInt + 31) / 32 := by
    rw [Int32.toInt_div, hadd, h32, Int.tdiv_eq_ediv_of_nonneg (by omega)]
    exact Int.bmod_eq_of_le (by omega) (by omega)
  refine ⟨?_, hprod, hprod'⟩
  rw [Int32.toInt_mul, hdiv, h4]
  exact Int.bmod_eq_of_le (by omega) (by omega)

/-! ## What happens to a card -/

theorem length_write {v v' : Vram} {offset : Nat} {values : List UInt8}
    (hwrite : v.write offset values = some v') : v'.bytes.length = v.bytes.length := by
  unfold Vram.write at hwrite
  split_ifs at hwrite with hle
  rw [← Option.some.inj hwrite]
  exact Slice.length_overwrite hle

theorem write_isSome {v : Vram} {offset : Nat} {values : List UInt8}
    (hle : offset + values.length ≤ v.bytes.length) : ∃ v', v.write offset values = some v' :=
  ⟨_, dif_pos hle⟩

theorem length_fillGrayRow {v v' : Vram} {depth : Int32} {y first last : Nat}
    (hfill : fillGrayRow v depth y first last = some v') : v'.bytes.length = v.bytes.length := by
  unfold fillGrayRow at hfill
  split_ifs at hfill
  · rw [Option.some.inj hfill]
  · exact length_write hfill

theorem length_fillGrayScreen (hfill : s.fillGrayScreen = some s') :
    ∃ vram : Vram, s' = { s with vram := vram } ∧ vram.bytes.length = s.vram.bytes.length := by
  obtain ⟨vram, hvram, hs'⟩ := Option.map_eq_some_iff.1 hfill
  refine ⟨vram, hs'.symm, ?_⟩
  have hrows : ∀ (f : Vram → Nat → Option Vram),
      (∀ v y v', f v y = some v' → v'.bytes.length = v.bytes.length) →
        ∀ (ys : List Nat) (v : Vram), ys.foldlM f v = some vram →
          vram.bytes.length = v.bytes.length := by
    intro f hf ys
    induction ys with
    | nil =>
      intro v hv
      rw [Option.some.inj hv]
    | cons y ys ih =>
      intro v hv
      rw [List.foldlM_cons] at hv
      obtain ⟨v₁, h₁, h₂⟩ := Option.bind_eq_some_iff.1 hv
      exact (ih v₁ h₂).trans (hf v y v₁ h₁)
  split_ifs at hvram
  · exact hrows _ (fun v y v' hv => length_fillGrayRow hv) _ _ hvram
  · exact length_write hvram

theorem Built.writeMode (hs : Built w h d n s) (value : UInt8) : Built w h d n (s.writeMode value) := by
  unfold CuteMacVideoCard.writeMode
  split
  · next depth hdepth =>
    split_ifs with hle
    · exact ⟨hs.width, hs.height, hs.maximumDepth, hs.bytes, List.mem_of_getElem? hdepth,
        hs.maximumDepth ▸ hle⟩
    · exact hs
  · exact hs

theorem Built.writeBlue (hs : Built w h d n s) (value : UInt8) : Built w h d n (s.writeBlue value) := by
  obtain ⟨hw, hh, hmax, hbytes, hdepth, hle⟩ := hs
  unfold CuteMacVideoCard.writeBlue
  exact ⟨hw, hh, hmax, hbytes, hdepth, hle⟩

theorem Built.write8 (hs : Built w h d n s) {offset : UInt32} {value : UInt8}
    (hwrite : s.write8 offset value = some s') : Built w h d n s' := by
  have hwritten := write8_written s offset value
  rw [hwrite] at hwritten
  generalize hr : some s' = r at hwritten
  cases hwritten with
  | nothing =>
    obtain rfl := Option.some.inj hr
    exact hs
  | mode =>
    obtain rfl := Option.some.inj hr
    exact hs.writeMode value
  | interrupt =>
    obtain rfl := Option.some.inj hr
    exact ⟨hs.width, hs.height, hs.maximumDepth, hs.bytes, hs.depth, hs.depth_le⟩
  | address =>
    obtain rfl := Option.some.inj hr
    exact ⟨hs.width, hs.height, hs.maximumDepth, hs.bytes, hs.depth, hs.depth_le⟩
  | latch =>
    obtain rfl := Option.some.inj hr
    exact ⟨hs.width, hs.height, hs.maximumDepth, hs.bytes, hs.depth, hs.depth_le⟩
  | blue =>
    obtain rfl := Option.some.inj hr
    exact hs.writeBlue value
  | gray =>
    obtain ⟨vram, rfl, hvram⟩ := length_fillGrayScreen hr.symm
    exact ⟨hs.width, hs.height, hs.maximumDepth, hvram.trans hs.bytes, hs.depth, hs.depth_le⟩
  | command =>
    obtain rfl := Option.some.inj hr
    unfold writeCommand
    split_ifs <;> exact ⟨hs.width, hs.height, hs.maximumDepth, hs.bytes, hs.depth, hs.depth_le⟩
  | memory =>
    obtain ⟨vram, hvram, rfl⟩ := Option.map_eq_some_iff.1 hr.symm
    exact ⟨hs.width, hs.height, hs.maximumDepth, (length_write hvram).trans hs.bytes, hs.depth,
      hs.depth_le⟩

theorem Built.tick (hs : Built w h d n s) (cycles : Nat) : Built w h d n (s.tick cycles) := by
  obtain ⟨hw, hh, hmax, hbytes, hdepth, hle⟩ := hs
  unfold CuteMacVideoCard.tick
  dsimp only
  split_ifs <;> exact ⟨hw, hh, hmax, hbytes, hdepth, hle⟩

theorem Built.reset (hs : Built w h d n s) (hd : 1 ≤ d) : Built w h d n s.reset := by
  refine ⟨hs.width, hs.height, hs.maximumDepth, ?_, List.mem_cons_self, hd⟩
  exact (List.length_replicate ..).trans hs.bytes

theorem Built.step (hs : Built w h d n s) (hd : 1 ≤ d) {input : Input}
    (hstep : s.step input = some s') : Built w h d n s' := by
  cases input with
  | write8 offset value => exact hs.write8 hstep
  | tick cycles => exact Option.some.inj hstep ▸ hs.tick cycles
  | setHostPointerPosition x y =>
    obtain ⟨hw, hh, hmax, hbytes, hdepth, hle⟩ := hs
    rw [← Option.some.inj hstep]
    unfold CuteMacVideoCard.setHostPointerPosition
    dsimp only
    split_ifs <;> exact ⟨hw, hh, hmax, hbytes, hdepth, hle⟩
  | takePowerRequest =>
    obtain ⟨hw, hh, hmax, hbytes, hdepth, hle⟩ := hs
    obtain rfl := Option.some.inj hstep
    exact ⟨hw, hh, hmax, hbytes, hdepth, hle⟩
  | reset => exact Option.some.inj hstep ▸ hs.reset hd
  | transfer vram =>
    replace hstep : (if vram.bytes.length = s.vram.bytes.length then some { s with vram := vram }
      else none) = some s' := hstep
    split_ifs at hstep with hlength
    obtain ⟨hw, hh, hmax, hbytes, hdepth, hle⟩ := hs
    obtain rfl := Option.some.inj hstep
    exact ⟨hw, hh, hmax, hlength.trans hbytes, hdepth, hle⟩

theorem Built.run (hd : 1 ≤ d) {inputs : List Input} : ∀ {s : CuteMacVideoCard}, Built w h d n s →
    inputs.foldlM CuteMacVideoCard.step s = some s' → Built w h d n s' := by
  induction inputs with
  | nil =>
    intro s hs hrun
    exact Option.some.inj hrun ▸ hs
  | cons input inputs ih =>
    intro s hs hrun
    rw [List.foldlM_cons] at hrun
    obtain ⟨t, ht, hrest⟩ := Option.bind_eq_some_iff.1 hrun
    exact ih (hs.step hd ht) hrest

/-- The depth of a card as it is made. -/
theorem made_mem (depth : Int32) : (if depth ∈ depths then depth else 8) ∈ depths := by
  split_ifs with hdepth
  · exact hdepth
  · decide

theorem one_le_made (depth : Int32) : (1 : Int32) ≤ if depth ∈ depths then depth else 8 :=
  Int32.le_iff_toInt_le.2 (one_le_of_mem (made_mem depth)).1

theorem built_make (width height depth vramKiB : Int32) (acceleration absolutePointer : Bool)
    (rom : List UInt8) :
    Built (max 320 (min 4096 width)) (max 200 (min 2160 height)) (if depth ∈ depths then depth else 8)
      (vramBytes vramKiB) (make width height depth vramKiB acceleration absolutePointer rom) :=
  Built.reset ⟨rfl, rfl, rfl, List.length_replicate, made_mem depth, Int32.le_refl _⟩
    (one_le_made depth)

/-! ## Screens that fit -/

/-- The screen of every depth up to the configured one fits where that of the configured does. -/
theorem screen_le (hs : Built w h d n s) (hw : 0 < w.toInt ∧ w.toInt ≤ 4096) (hh : 0 ≤ h.toInt)
    (hfit : (w.toInt * d.toInt + 31) / 32 * 4 * h.toInt ≤ 0xe0000) :
    0 < s.strideBytes.toInt ∧ s.strideBytes.toInt * s.height.toInt ≤ 0xe0000 := by
  have hdepth := one_le_of_mem hs.depth
  have hle : s.depth.toInt ≤ d.toInt := Int32.le_iff_toInt_le.1 hs.depth_le
  have hstride : s.strideBytes.toInt = (w.toInt * s.depth.toInt + 31) / 32 * 4 := by
    unfold strideBytes
    rw [hs.width]
    exact (stride_toInt ⟨hw.1.le, hw.2⟩ hs.depth).1
  have hpos : 1 * 1 ≤ w.toInt * s.depth.toInt := Int.mul_le_mul hw.1 hdepth.1 (by decide) hw.1.le
  have hmono : w.toInt * s.depth.toInt ≤ w.toInt * d.toInt :=
    Int.mul_le_mul_of_nonneg_left hle hw.1.le
  rw [hstride, hs.height]
  refine ⟨by omega, le_trans (Int.mul_le_mul_of_nonneg_right ?_ hh) hfit⟩
  omega

theorem length_grayRow (depth : Int32) (y count : Nat) : (grayRow depth y count).length = count := by
  unfold grayRow
  dsimp only
  by_cases hbytes : depth = 8
  · rw [if_pos hbytes, List.length_map, List.length_range]
  · rw [if_neg hbytes]
    exact List.length_replicate

theorem fillGrayRow_isSome {v : Vram} {depth : Int32} {y first last : Nat} (hfirst : first ≤ last)
    (hlast : last ≤ v.bytes.length) : ∃ v', fillGrayRow v depth y first last = some v' := by
  unfold fillGrayRow
  rw [if_neg (Nat.not_lt.2 hfirst)]
  exact write_isSome (by rw [length_grayRow]; omega)

theorem fillGrayScreen_isSome (hstride : 0 < s.strideBytes.toInt)
    (hscreen : s.strideBytes.toInt * s.height.toInt ≤ s.vram.bytes.length) :
    s.fillGrayScreen.isSome := by
  unfold fillGrayScreen requiredBytes
  obtain ⟨k, hk⟩ : ∃ k : Nat, s.strideBytes.toInt = k := ⟨_, (Int.toNat_of_nonneg hstride.le).symm⟩
  have hrequired : min s.vram.bytes.length (s.strideBytes.toInt * s.height.toInt).toNat =
      (s.strideBytes.toInt * s.height.toInt).toNat := Nat.min_eq_right (by omega)
  dsimp only
  rw [hrequired, Option.isSome_map, hk, Int.toNat_natCast]
  split_ifs
  · have hrows : ∀ y < s.height.toInt.toNat, y * k + k ≤ ((k : Int) * s.height.toInt).toNat := by
      intro y hy
      have hle : (y + 1) * k ≤ s.height.toInt.toNat * k := Nat.mul_le_mul_right k hy
      have heq : ((k : Int) * s.height.toInt).toNat = s.height.toInt.toNat * k := by
        rw [Int.toNat_mul (Int.natCast_nonneg k) (by omega), Int.toNat_natCast, Nat.mul_comm]
      rwa [heq, ← Nat.succ_mul]
    obtain ⟨v, hv, -⟩ := Machine.foldlM_range_inv
      (f := fun v y => fillGrayRow v s.depth y (y * k)
        (min ((k : Int) * s.height.toInt).toNat (y * k + k)))
      (P := fun _ v => v.bytes.length = s.vram.bytes.length) (n := s.height.toInt.toNat) rfl
      (fun y hy v hv => by
        have hrow := hrows y hy
        rw [hk] at hscreen
        obtain ⟨v', hv'⟩ : ∃ v', fillGrayRow v s.depth y (y * k)
            (min ((k : Int) * s.height.toInt).toNat (y * k + k)) = some v' :=
          fillGrayRow_isSome (by omega) (by omega)
        exact ⟨v', hv', (length_fillGrayRow hv').trans hv⟩)
    rw [hv]
    rfl
  · rw [hk] at hscreen
    obtain ⟨v, hv⟩ : ∃ v, s.vram.memset 0 0x88 ((k : Int) * s.height.toInt).toNat = some v :=
      write_isSome (by rw [List.length_replicate]; omega)
    rw [hv]
    rfl

theorem write8_isSome (hstride : 0 < s.strideBytes.toInt)
    (hscreen : s.strideBytes.toInt * s.height.toInt ≤ s.vram.bytes.length) (offset : UInt32)
    (value : UInt8) : (s.write8 offset value).isSome := by
  have hwritten := write8_written s offset value
  generalize s.write8 offset value = r at hwritten
  cases hwritten with
  | gray => exact fillGrayScreen_isSome hstride hscreen
  | memory _ address hinside =>
    obtain ⟨v, hv⟩ : ∃ v, s.vram.write address [value] = some v := write_isSome hinside
    rw [hv]
    rfl
  | _ => rfl

theorem videoFrame_valid (hdepth : s.depth ∈ depths) (hw : 0 < s.width.toInt)
    (hh : 0 < s.height.toInt) (hstride : 0 < s.strideBytes.toInt)
    (hscreen : s.strideBytes.toInt * s.height.toInt ≤ s.vram.bytes.length) : s.videoFrame.Valid := by
  have hrows : s.strideBytes.toInt * s.height.toInt ≤
      (s.vram.bytes.take (s.strideBytes.toInt * s.height.toInt).toNat).length := by
    rw [List.length_take]
    omega
  unfold videoFrame
  dsimp only
  rw [if_neg (by omega)]
  by_cases hindexed : s.depth ≤ 8
  · rw [if_pos hindexed]
    refine ⟨hw, hh, hstride, ?_, hrows⟩
    have hall : ∀ d ∈ depths, d ≤ 8 → d = 1 ∨ d = 2 ∨ d = 4 ∨ d = 8 := of_mem_depths (by decide)
    exact hall s.depth hdepth hindexed
  · rw [if_neg hindexed]
    refine ⟨hw, hh, hstride, ?_, hrows⟩
    have hall : ∀ d ∈ depths, ¬ d ≤ 8 → d = 15 ∨ d = 16 ∨ d = 24 ∨ d = 32 :=
      of_mem_depths (by decide)
    exact hall s.depth hdepth hindexed

/-! ## The configurations -/

variable {slirp : Bool} {device : NuBusDeviceConfiguration} {rom : List UInt8}

/-- The configuration and its card agree, and the screen is in the memory at every depth. -/
structure Fits (device : NuBusDeviceConfiguration) (rom : List UInt8) : Prop where
  product : device.width.toInt * device.depth.toInt + 31 < 2147483648
  stride : (framebufferStrideBytes device.width device.depth).toInt =
    (device.width.toInt * device.depth.toInt + 31) / 32 * 4
  screen : (framebufferStrideBytes device.width device.depth).toInt * device.height.toInt < 2147483648
  width : (ofDevice device rom).width = device.width
  height : (ofDevice device rom).height = device.height
  inside : ∀ inputs s, List.foldlM step (ofDevice device rom) inputs = some s →
    s.strideBytes.toInt * s.height.toInt ≤ s.vram.bytes.length ∧
      s.strideBytes.toInt * s.height.toInt ≤ 0xe0000 ∧ s.videoFrame.Valid ∧
      ∀ offset value, (s.write8 offset value).isSome

/-- What the configuration of a card is asked for. -/
theorem valid_card (hvalid : isValidNuBusDeviceConfiguration slirp device = true)
    (htype : isCuteMacVideoDevice device.type = true) :
    320 ≤ device.width ∧ 200 ≤ device.height ∧ device.depth ∈ depths ∧ 1024 ≤ device.vramKiB ∧
      framebufferStrideBytes device.width device.depth * device.height ≤
        cuteMacVideoFramebufferLimitBytes := by
  have hother : ∀ type, isCuteMacVideoDevice type = false → device.type ≠ type := by
    intro type hfalse heq
    rw [heq, hfalse] at htype
    cases htype
  unfold isValidNuBusDeviceConfiguration at hvalid
  by_cases hslot : device.slot < 9 ∨ 14 < device.slot
  · rw [if_pos hslot] at hvalid
    cases hvalid
  rw [if_neg hslot, if_neg (hother _ rfl), if_neg (hother _ rfl), if_neg (hother _ rfl),
    if_neg (by rw [htype]; exact Bool.false_ne_true)] at hvalid
  by_cases hsize : device.width < 320 ∨ device.height < 200
  · rw [if_pos hsize] at hvalid
    cases hvalid
  rw [if_neg hsize] at hvalid
  by_cases hdepth : device.depth ≠ 1 ∧ device.depth ≠ 2 ∧ device.depth ≠ 4 ∧ device.depth ≠ 8 ∧
      device.depth ≠ 16 ∧ device.depth ≠ 32
  · rw [if_pos hdepth] at hvalid
    cases hvalid
  rw [if_neg hdepth] at hvalid
  by_cases hvram : device.vramKiB < 1024 ∨ 14 * 1024 < device.vramKiB
  · rw [if_pos hvram] at hvalid
    cases hvalid
  rw [if_neg hvram] at hvalid
  by_cases hwhole : device.vramKiB % 1024 ≠ 0
  · rw [if_pos hwhole] at hvalid
    cases hvalid
  rw [if_neg hwhole] at hvalid
  refine ⟨Int32.not_lt.1 fun h => hsize (Or.inl h), Int32.not_lt.1 fun h => hsize (Or.inr h), ?_,
    Int32.not_lt.1 fun h => hvram (Or.inl h), ?_⟩
  · by_contra hnot
    simp only [depths, List.mem_cons, List.not_mem_nil, or_false, not_or] at hnot
    exact hdepth hnot
  · exact of_decide_eq_true (Bool.and_eq_true_iff.1 hvalid).2

theorem clamp_eq_iff {low high x : Int32} (horder : low ≤ high) (hlow : low ≤ x) :
    max low (min high x) = x ↔ x ≤ high := by
  show (if low ≤ (if high ≤ x then high else x) then (if high ≤ x then high else x) else low) = x ↔ _
  by_cases hx : high ≤ x
  · rw [if_pos hx, if_pos horder]
    exact ⟨fun h => h ▸ Int32.le_refl _, fun h => Int32.le_antisymm hx h⟩
  · rw [if_neg hx, if_pos hlow]
    exact iff_of_true rfl (Int32.le_of_lt (Int32.not_le.1 hx))

theorem built_ofDevice (rom : List UInt8) (hdepth : device.depth ∈ depths) :
    Built (max 320 (min 4096 device.width)) (max 200 (min 2160 device.height)) device.depth
      (vramBytes device.vramKiB) (ofDevice device rom) := by
  have hbuilt := built_make device.width device.height device.depth device.vramKiB
    (device.type == .cuteMacVideo && device.acceleration) device.absolutePointer rom
  rwa [if_pos hdepth] at hbuilt

/-- The card of an accepted configuration fits exactly where its size is one that cards have. -/
theorem fits_iff (hvalid : isValidNuBusDeviceConfiguration slirp device = true)
    (htype : isCuteMacVideoDevice device.type = true) :
    Fits device rom ↔ device.width ≤ 4096 ∧ device.height ≤ 2160 := by
  obtain ⟨hw, hh, hdepth, hvram, hlimit⟩ := valid_card hvalid htype
  have hbuilt := built_ofDevice rom hdepth
  have hwidth : max 320 (min 4096 device.width) = device.width ↔ device.width ≤ 4096 :=
    clamp_eq_iff (by decide) hw
  have hheight : max 200 (min 2160 device.height) = device.height ↔ device.height ≤ 2160 :=
    clamp_eq_iff (by decide) hh
  constructor
  · intro h
    exact ⟨hwidth.1 (hbuilt.width.symm.trans h.width), hheight.1 (hbuilt.height.symm.trans h.height)⟩
  · rintro ⟨hw', hh'⟩
    rw [hwidth.2 hw', hheight.2 hh'] at hbuilt
    have hwide : 320 ≤ device.width.toInt ∧ device.width.toInt ≤ 4096 :=
      ⟨Int32.le_iff_toInt_le.1 hw, Int32.le_iff_toInt_le.1 hw'⟩
    have hhigh : 200 ≤ device.height.toInt ∧ device.height.toInt ≤ 2160 :=
      ⟨Int32.le_iff_toInt_le.1 hh, Int32.le_iff_toInt_le.1 hh'⟩
    obtain ⟨hstride, hprod, hprod'⟩ := stride_toInt ⟨by omega, hwide.2⟩ hdepth
    have hscreen : (device.width.toInt * device.depth.toInt + 31) / 32 * 4 * device.height.toInt ≤
        16384 * 2160 := Int.mul_le_mul (by omega) hhigh.2 (by omega) (by decide)
    have hscreen0 : 0 ≤ (device.width.toInt * device.depth.toInt + 31) / 32 * 4 *
        device.height.toInt := Int.mul_nonneg (by omega) (by omega)
    have hfit : (device.width.toInt * device.depth.toInt + 31) / 32 * 4 * device.height.toInt ≤
        0xe0000 := by
      have hle := Int32.le_iff_toInt_le.1 hlimit
      rw [Int32.toInt_mul, framebufferStrideBytes, hstride, Int.bmod_eq_of_le (by omega) (by omega)]
        at hle
      exact hle
    refine ⟨by omega, hstride, ?_, hbuilt.width, hbuilt.height, fun inputs s hrun => ?_⟩
    · rw [framebufferStrideBytes, hstride]
      omega
    · have hs := hbuilt.run (Int32.le_iff_toInt_le.2 (one_le_of_mem hdepth).1) hrun
      obtain ⟨hpos, hle⟩ := screen_le hs ⟨by omega, hwide.2⟩ (by omega) hfit
      have hbytes : 0xe0000 ≤ s.vram.bytes.length := by
        have hvram' : 1024 ≤ device.vramKiB.toInt := Int32.le_iff_toInt_le.1 hvram
        rw [hs.bytes, vramBytes]
        omega
      have hinside : s.strideBytes.toInt * s.height.toInt ≤ s.vram.bytes.length := by omega
      refine ⟨hinside, hle, videoFrame_valid hs.depth ?_ ?_ hpos hinside, write8_isSome hpos hinside⟩
      · rw [hs.width]
        omega
      · rw [hs.height]
        omega

theorem fits_default : Fits {} [] :=
  by
  have hvalid : isValidNuBusDeviceConfiguration false {} = true := by decide
  exact (fits_iff hvalid (by decide)).2 (by decide)

/-- A wide low screen is accepted, and the card has another one; so is one whose stride
    overflows. -/
theorem wide_not_fits :
    (isValidNuBusDeviceConfiguration false { width := 8000, height := 200, depth := 1 } = true ∧
        ¬ Fits { width := 8000, height := 200, depth := 1 } []) ∧
      isValidNuBusDeviceConfiguration false { width := 134217984, height := 200, depth := 32 } = true ∧
        ¬ Fits { width := 134217984, height := 200, depth := 32 } [] :=
  ⟨⟨by decide, fun h => absurd h.width (by decide)⟩, by decide, fun h => absurd h.product (by decide)⟩

end

end CuteMacVideoCard

end CuteMac.Video

/-
  The ranges of the state of a drive.

  * `prescribedBytes`: the size of the image that a kind asks for; `sides`: the sides of a medium;
  * `InRange`: track, side, cursor, write buffers, data and tags are in their ranges;
  * `kindFits_apply`: every operation keeps the size of the kind;
  * `inRange_of_run`: the ranges hold after every run.
-/
import CuteMac.Floppy.Invariant

namespace CuteMac.Floppy

open Slice Framing FloppyDiskImage

namespace FloppyDiskImage

/-! ## The medium -/

/-- What the kind of an image says about its size; a container tells it in its header. -/
def prescribedBytes (d : FloppyDiskImage) : Nat :=
  match d.kind with
  | .empty => 0
  | .raw400K => raw400KBytes
  | .raw800K => raw800KBytes
  | .raw1440K => raw1440KBytes
  | .diskCopy42 => (readBe32 d.diskCopyHeader 64).toNat

/-- The sides of the medium in the drive; the head of an empty drive stands on the first. -/
def sides (d : FloppyDiskImage) : Nat :=
  if d.data.length = raw800KBytes ∨ d.data.length = raw1440KBytes then 2 else 1

structure InRange (d : FloppyDiskImage) : Prop where
  track : d.currentTrack < tracksPerSide
  side : d.currentSide < d.sides
  cursor : d.trackCache.bytes = [] ∨ d.trackCache.cursor < d.trackCache.bytes.length
  marks : d.writeMarks.length = d.writeBytes.length
  pending : d.writeBytes.length ≤ maximumWriteWindow
  size : d.data.length = d.prescribedBytes
  tags : d.tags = [] ∨ d.tags.length = d.data.length / bytesPerSector
  tag : ∀ t ∈ d.tags, t.length = tagBytesPerSector

/-! ## The size of the kind -/

/-- The image has the size of its kind, and nothing is in an empty drive. -/
structure KindFits (d : FloppyDiskImage) : Prop where
  size : d.kind ≠ .diskCopy42 → d.data.length = d.prescribedBytes
  empty : d.kind = .empty → d.doubleSided = false

section
variable {d d' : FloppyDiskImage}

theorem KindFits.of (hd : d.KindFits) (hkind : d'.kind = d.kind)
    (hlength : d'.data.length = d.data.length) (hsides : d'.doubleSided = d.doubleSided) :
    d'.KindFits := by
  refine ⟨fun h => ?_, fun h => ?_⟩
  · have hsize := hd.size (hkind ▸ h)
    unfold prescribedBytes at hsize ⊢
    rw [hlength, hkind, hsize]
    revert h
    rw [hkind]
    cases d.kind with
    | diskCopy42 => exact fun h => absurd rfl h
    | _ => exact fun _ => rfl
  · rw [hsides]
    exact hd.empty (hkind ▸ h)

theorem KindFits.of_sameDisk (hd : d.KindFits) (h : SameDisk d d') : d'.KindFits :=
  hd.of h.kind h.dataLength h.doubleSided

theorem kindFits_noDisk (hkind : d.kind = .empty) (hdata : d.data = [])
    (hsides : d.doubleSided = false) : d.KindFits := by
  refine ⟨fun _ => ?_, fun _ => hsides⟩
  unfold prescribedBytes
  rw [hkind, hdata]
  rfl

theorem kindFits_loadRaw {path : String} {bytes : List UInt8} {kind : Kind}
    (h : (bytes.length = raw400KBytes ∧ kind = .raw400K) ∨
      (bytes.length = raw800KBytes ∧ kind = .raw800K) ∨
      (bytes.length = raw1440KBytes ∧ kind = .raw1440K)) : (d.loadRaw path bytes kind).1.KindFits := by
  rcases h with ⟨hlength, rfl⟩ | ⟨hlength, rfl⟩ | ⟨hlength, rfl⟩
  · exact ⟨fun _ => hlength, fun hempty => by cases hempty⟩
  · exact ⟨fun _ => hlength, fun hempty => by cases hempty⟩
  · exact ⟨fun _ => hlength, fun hempty => by cases hempty⟩

theorem kindFits_container (hkind : d.kind = .diskCopy42) : d.KindFits := by
  refine ⟨fun h => absurd hkind h, fun h => ?_⟩
  rw [hkind] at h
  cases h

/-- A load leaves the drive as it is, or the image that it inserts has the size of its kind. -/
theorem kindFits_load (hd : d.KindFits) (path : String) (readOnly : Bool) :
    (d.load path readOnly).1.KindFits := by
  have hstay : KindFits { d with forceReadOnly := readOnly } := hd.of rfl rfl rfl
  simp only [load]
  cases ({ d with forceReadOnly := readOnly } : FloppyDiskImage).host.readAll path with
  | none => exact hstay
  | some bytes =>
    simp only []
    split_ifs with h400 h800 h1440 hcut800 hcut1440 hheader
    · exact kindFits_loadRaw (Or.inl ⟨h400, rfl⟩)
    · exact kindFits_loadRaw (Or.inr (Or.inl ⟨h800, rfl⟩))
    · exact kindFits_loadRaw (Or.inr (Or.inr ⟨h1440, rfl⟩))
    · exact kindFits_loadRaw (Or.inr (Or.inl ⟨length_padded .., rfl⟩))
    · exact kindFits_loadRaw (Or.inr (Or.inr ⟨length_padded .., rfl⟩))
    · by_cases hfile : DiskCopyFile bytes
      · rw [loadDiskCopy42_of hfile]
        exact kindFits_container rfl
      · rw [loadDiskCopy42_of_not hfile]
        exact hstay
    · exact hstay

theorem kindFits_flushWrites (hw : d.Wf) (hd : d.KindFits) : d.flushWrites.1.KindFits := by
  rw [flushWrites_fst hw]
  exact hd.of rfl rfl rfl

/-- Reading does not change the disk. -/
theorem sameDisk_peekDiskByte (d : FloppyDiskImage) : SameDisk d d.peekDiskByte.1 := by
  have hcache : SameDisk d d.ensureTrackCache := SameDisk.of (by rw [ensureTrackCache_eq])
  simp only [peekDiskByte]
  split_ifs
  · exact SameDisk.refl d
  · exact hcache
  · exact hcache

theorem SameDisk.traced (d : FloppyDiskImage) (shift : UInt32) (events : List String)
    (nibbles : List UInt8) :
    SameDisk d { d with traceShift := shift, traceEvents := events, lastNibbles := nibbles } :=
  SameDisk.of rfl

theorem sameDisk_nextDiskByte (d : FloppyDiskImage) : SameDisk d d.nextDiskByte.1 := by
  have hpeek := sameDisk_peekDiskByte d
  have htrace : ∀ (x : FloppyDiskImage) (value : UInt8), SameDisk x (x.traceNibble value) := by
    intro x value
    simp only [traceNibble]
    split
    · exact SameDisk.refl x
    · split <;> exact SameDisk.traced ..
  simp only [nextDiskByte]
  split_ifs
  · exact hpeek
  · exact (hpeek.trans (SameDisk.of rfl)).trans (htrace _ _)

theorem kindFits_apply (hw : d.Wf) (hd : d.KindFits) (op : Op) : (d.apply op).KindFits := by
  have htrack : ∀ track, (d.setCurrentTrack track).KindFits := by
    intro track
    unfold setCurrentTrack
    split_ifs
    · exact (kindFits_flushWrites hw hd).of rfl rfl rfl
    · exact hd
  cases op with
  | load path readOnly => exact kindFits_load hd path readOnly
  | eject => exact kindFits_noDisk rfl rfl rfl
  | setCurrentTrack track => exact htrack track
  | step towardTrackZero => exact htrack _
  | setCurrentSide side =>
    simp only [apply, setCurrentSide]
    split_ifs
    · exact (kindFits_flushWrites hw hd).of rfl rfl rfl
    · exact hd
  | setMotorOn on =>
    simp only [apply, setMotorOn]
    split_ifs
    · exact (kindFits_flushWrites hw hd).of rfl rfl rfl
    · exact hd.of rfl rfl rfl
  | peekDiskByte => exact hd.of_sameDisk (sameDisk_peekDiskByte d)
  | nextDiskByte => exact hd.of_sameDisk (sameDisk_nextDiskByte d)
  | writeDiskByte value mark => exact hd.of_sameDisk (sameDisk_writeDiskByte d value mark)
  | flushWrites => exact kindFits_flushWrites hw hd
  | invalidateTrackCache => exact hd.of rfl rfl rfl
  | clearMediaChanged => exact hd.of rfl rfl rfl
  | setTraceEnabled enabled => exact hd.of rfl rfl rfl
  | clearTrace => exact hd.of rfl rfl rfl
  | world host => exact hd.of rfl rfl rfl

/-! ## The ranges -/

theorem inRange_of (hw : d.Wf) (hd : d.KindFits) : d.InRange where
  track := hw.track
  side := by
    have hside := hw.side
    unfold sides
    by_cases hdisk : d.inserted = true
    · rw [hw.doubleSided hdisk] at hside
      rcases hw.size hdisk with h | h | h <;> rw [h] at hside ⊢ <;> exact hside
    · have hkind : d.kind = .empty := by simpa [inserted] using hdisk
      rw [hd.empty hkind, if_neg Bool.false_ne_true] at hside
      split_ifs <;> omega
  cursor := by
    by_cases hempty : d.trackCache.bytes = []
    · exact Or.inl hempty
    · exact Or.inr (hw.cache hempty).cursor
  marks := hw.marks
  pending := by
    have hlt := cut_rest_le d.highDensity d.writeBytes
    have hrest : (cut (format d.highDensity) d.writeBytes).2 = d.writeBytes :=
      congrArg Prod.snd hw.settled
    rw [hrest] at hlt
    exact hlt.le.trans (by decide)
  size := by
    by_cases hkind : d.kind = .diskCopy42
    · unfold prescribedBytes
      rw [hkind]
      exact (hw.header hkind).dataSize.symm
    · exact hd.size hkind
  tags := hw.tags
  tag := hw.tag

end

end FloppyDiskImage

/-- The state of a drive is in its ranges, whatever is done with it. -/
theorem inRange_of_run (host : Host) (ops : List Op) :
    (Machine.run FloppyDiskImage.apply { host := host } ops).InRange := by
  have hinit : FloppyDiskImage.Wf { host := host } ∧ FloppyDiskImage.KindFits { host := host } :=
    ⟨wf_noDisk rfl rfl rfl rfl rfl rfl rfl, kindFits_noDisk rfl rfl rfl⟩
  obtain ⟨hw, hd⟩ := Machine.run_inv (I := fun d : FloppyDiskImage => d.Wf ∧ d.KindFits)
    (fun d op h => ⟨wf_apply h.1 op, kindFits_apply h.1 h.2 op⟩) hinit ops
  exact inRange_of hw hd

end CuteMac.Floppy

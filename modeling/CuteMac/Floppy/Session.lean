/-
  Write sessions, gap by gap and record by record.

  * `Kept`: nothing of the disk has changed;
  * `write_idle`, `write_gap`: bytes without a record change nothing of the disk;
  * `write_frame`: a gap and a record: the record acts;
  * `Wrote`: one sector was written.
-/
import CuteMac.Floppy.Invariant

namespace CuteMac.Floppy.FloppyDiskImage

open Slice Framing

/-! ## Between records -/

/-- Only the head, the write buffer and the sector that the next data field goes to have changed. -/
def Kept (d d' : FloppyDiskImage) : Prop :=
  d' = { d with
    trackCache := d'.trackCache
    writeBytes := d'.writeBytes
    writeMarks := d'.writeMarks
    writeMfmSector := d'.writeMfmSector }

theorem Kept.rfl' (d : FloppyDiskImage) : Kept d d := rfl

theorem Kept.trans {d d' d'' : FloppyDiskImage} (h : Kept d d') (h' : Kept d' d'') : Kept d d'' := by
  unfold Kept at *
  rw [h', h]

theorem Kept.sameDisk {d d' : FloppyDiskImage} (h : Kept d d') : SameDisk d d' :=
  SameDisk.of (by rw [h])

/-- Nothing has changed, and a sector that was known is the same. -/
structure Idle (d d' : FloppyDiskImage) : Prop where
  kept : Kept d d'
  sector : 0 ≤ d.writeMfmSector → d'.writeMfmSector = d.writeMfmSector

theorem Idle.rfl' (d : FloppyDiskImage) : Idle d d := ⟨rfl, fun _ => rfl⟩

theorem Idle.trans {d d' d'' : FloppyDiskImage} (h : Idle d d') (h' : Idle d' d'') : Idle d d'' :=
  ⟨h.kept.trans h'.kept, fun hs => (h'.sector (by rw [h.sector hs]; exact hs)).trans (h.sector hs)⟩

theorem kept_takeByte (d : FloppyDiskImage) : Kept d d.takeByte := by
  unfold Kept
  rw [takeByte_eq]

theorem idle_takeByte (d : FloppyDiskImage) : Idle d d.takeByte := by
  refine ⟨kept_takeByte d, fun hs => ?_⟩
  have he : d.ensureTrackCache.writeMfmSector = d.writeMfmSector := by rw [ensureTrackCache_eq]
  rw [takeByte_eq]
  simp only [inferSector]
  rw [if_neg (by simp [he, hs]), he]

theorem Idle.buffered {d d' : FloppyDiskImage} (h : Idle d d') (b b' : List UInt8)
    (m m' : List Bool) : Idle (d.buffered b m) (d'.buffered b' m') := by
  refine ⟨?_, h.sector⟩
  have hk := h.kept
  unfold Kept at hk ⊢
  rw [hk]
  rfl

theorem idle_pre (highDensity : Bool) (w : List UInt8) (d : FloppyDiskImage) :
    Idle d ((session highDensity).pre w d) := by
  have h1 : Idle d (d.buffered w []) := (Idle.rfl' d).buffered d.writeBytes w d.writeMarks []
  have h2 := (idle_takeByte (d.buffered w [])).buffered w [] [] []
  exact h1.trans h2

section
variable {d : FloppyDiskImage} {s : List DiskByte}

/-- Bytes that complete no record. -/
theorem write_idle (hd : d.Wf) (hr : d.Ready)
    (hidle : (cut (format d.highDensity) (d.writeBytes ++ s.map DiskByte.value)).1 = []) :
    Idle d (d.writeDiskBytes s) ∧ (d.writeDiskBytes s).writeBytes =
      (cut (format d.highDensity) (d.writeBytes ++ s.map DiskByte.value)).2 := by
  have habs := abs_writeDiskBytes hr s
  refine ⟨?_, ?_⟩
  · have hrun : Idle (d.buffered [] []) (Machine.run (session d.highDensity).step (abs d)
        (s.map DiskByte.value)).2 :=
      Scanner.run_idle Idle.rfl' Idle.trans (idle_pre d.highDensity) hidle
    rw [← habs] at hrun
    exact hrun.buffered d.writeBytes _ d.writeMarks _
  · have hwin := Scanner.run_window (S := session d.highDensity) hd.settled (d.buffered [] [])
      (s.map DiskByte.value)
    exact (congrArg Prod.fst habs).trans hwin

/-- Bytes that are no last byte of a sync pattern. -/
theorem write_gap (hd : d.Wf) (hr : d.Ready) {x : UInt8}
    (hx : (format d.highDensity).sync.getLast? = some x)
    (hw : ¬ (format d.highDensity).sync <:+: d.writeBytes) (hg : x ∉ s.map DiskByte.value) :
    Idle d (d.writeDiskBytes s) ∧
      (2 ≤ s.length → ∀ b ∈ (d.writeDiskBytes s).writeBytes, b ∈ s.map DiskByte.value) := by
  have hcut := cut_of_not_infix (not_infix_append hx hw hg)
  obtain ⟨h1, h2⟩ := write_idle hd hr (s := s) (by rw [hcut])
  refine ⟨h1, fun hs b hb => ?_⟩
  have hsync : (format d.highDensity).sync.length = 3 := by cases d.highDensity <;> rfl
  -- what is kept are the last two bytes, and these are of the gap
  have hlen : (d.writeBytes ++ s.map DiskByte.value).length - (3 - 1) =
      d.writeBytes.length + (s.length - 2) := by
    rw [List.length_append, List.length_map]
    omega
  rw [h2, hcut, keep, hsync, hlen, List.drop_append,
    List.drop_eq_nil_of_le (Nat.le_add_right _ _), List.nil_append] at hb
  exact List.mem_of_mem_drop hb

/-- A gap and a record. -/
theorem write_frame (hd : d.Wf) (hr : d.Ready) {g r : List UInt8}
    (hs : s.map DiskByte.value = g ++ r)
    (hg : ¬ (format d.highDensity).sync <:+:
      d.writeBytes ++ g ++ (format d.highDensity).sync.dropLast)
    (hsync : (format d.highDensity).sync <+: r)
    (hv : (format d.highDensity).verdict r = .take r.length) :
    ∃ x, Idle d.takeByte x ∧ (d.writeDiskBytes s).writeBytes = [] ∧
      Kept (act d.highDensity r x) (d.writeDiskBytes s) ∧
      (d.writeDiskBytes s).writeMfmSector = (act d.highDensity r x).writeMfmSector := by
  have habs := abs_writeDiskBytes hr s
  rw [hs] at habs
  obtain ⟨x, hx, hrun⟩ := Scanner.run_frame (S := session d.highDensity) Idle.rfl' Idle.trans
    (idle_pre d.highDensity) (s := d.buffered [] []) hd.settled hg hsync hv
  have hx' : Idle d.takeByte x := by
    have hpre : (session d.highDensity).pre d.writeBytes (d.buffered [] []) =
        d.takeByte.buffered [] [] := by
      change (d.buffered d.writeBytes []).takeByte.buffered [] [] = _
      rw [takeByte_marks]
      rfl
    rw [hpre] at hx
    exact hx.buffered d.takeByte.writeBytes x.writeBytes d.takeByte.writeMarks x.writeMarks
  have h2 : (d.writeDiskBytes s).buffered [] [] = act d.highDensity r x :=
    congrArg Prod.snd (habs.trans hrun)
  refine ⟨x, hx', congrArg Prod.fst (habs.trans hrun), ?_, ?_⟩
  · rw [← h2]
    rfl
  · rw [← h2]
    rfl

end

theorem wf_writeDiskBytes {d : FloppyDiskImage} (hd : d.Wf) (s : List DiskByte) :
    (d.writeDiskBytes s).Wf :=
  Machine.run_inv (I := Wf) (fun _ b h => wf_writeDiskByte h b.value b.mark) hd s

theorem writeDiskBytes_append (d : FloppyDiskImage) (s s' : List DiskByte) :
    d.writeDiskBytes (s ++ s') = (d.writeDiskBytes s).writeDiskBytes s' :=
  Machine.run_append ..

/-! ## Sectors -/

/-- One sector was written, as the commit says. -/
structure Wrote (d d' : FloppyDiskImage) (c : Commit) : Prop where
  same : SameDisk d d'
  data : d'.data = putBlock bytesPerSector d.data c.block c.data
  tags : d'.tags = (d.putSector c.block c.data c.tags).tags
  commits : d'.commits = d.commits ++ [c]
  failed : d'.writeFailed = (d.writeFailed || !c.saved)

theorem Wrote.congr {d d₁ d' d'₁ : FloppyDiskImage} {c : Commit} (h : Wrote d d' c)
    (hk : Kept d₁ d) (hk' : Kept d' d'₁) : Wrote d₁ d'₁ c := by
  have hs := hk.sameDisk.trans (h.same.trans hk'.sameDisk)
  obtain ⟨-, h1, h2, h3, h4⟩ := h
  unfold Kept at hk hk'
  refine ⟨hs, ?_, ?_, ?_, ?_⟩
  · rw [hk']
    exact h1.trans (by rw [hk])
  · rw [hk']
    exact h2.trans (by rw [hk]; rfl)
  · rw [hk']
    exact h3.trans (by rw [hk])
  · rw [hk']
    exact h4.trans (by rw [hk])

/-- Saves of the drive succeed. -/
def Saves (d : FloppyDiskImage) : Prop := d.writable = true ∧ ∀ n, d.host.saveOk n = true

theorem Saves.of_sameDisk {d d' : FloppyDiskImage} (hd : d.Saves) (h : SameDisk d d') : d'.Saves :=
  ⟨h.writable.trans hd.1, fun n => by rw [h.saveOk]; exact hd.2 n⟩

theorem wrote_commitSector {d : FloppyDiskImage} {k : Int} {data : List UInt8} {blk : Nat}
    (hdata : data.length = bytesPerSector) (hblk : d.sectorBlock k = blk)
    (hlt : blk < d.data.length / bytesPerSector) (tags : List UInt8) :
    ∃ saved, Wrote d (d.commitSector k data tags).1
        { block := blk, data := data, tags := tags, saved := saved } ∧
      (∀ d₀ : FloppyDiskImage, d₀.Wf → SameDisk d₀ d → d₀.inserted = true → d₀.Saves →
        saved = true) := by
  refine ⟨(d.putSector blk data tags).persistImage.2, ?_, fun d₀ h1 h2 h3 h4 => ?_⟩
  · have hs := sameDisk_commitSector d k data tags
    rw [commitSector_eq hdata hblk hlt tags] at hs ⊢
    exact ⟨hs, rfl, rfl, rfl, rfl⟩
  · exact persistImage_ok h1 (h2.trans (sameDisk_putSector hdata hlt tags)) h3 h4.1 h4.2

end CuteMac.Floppy.FloppyDiskImage

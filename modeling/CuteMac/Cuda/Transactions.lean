/-
  Transactions with the Cuda.

  * `RequestByte`, `ResponseByte`, `Raise`, `Transaction`: one exchange, with enough time
    after each transition;
  * `history`: what the adapter sees of a sequence of exchanges;
  * `requestByte_at`, `responseByte_at`, `raise_request_at`, …: one transition at a time;
  * `run_transactions`: the controller behaves like that, whatever the packets are;
  * `roundTheEnd`: a packet so long that its addresses come round.
-/
import CuteMac.Cuda.Counters
import Mathlib.Data.List.Chain

namespace CuteMac.Cuda

open CuteMac.Via Machine WriteLog CudaController

/-! ## The exchange -/

/-- The levels of the two lines. -/
def tipOf (output direction : UInt8) : Bool := output &&& direction &&& tip != 0
def byteAckOf (output direction : UInt8) : Bool := output &&& direction &&& byteAck != 0

/-- A byte is staged in output mode and latched by a transition with TIP low. -/
structure RequestByte where
  value : UInt8
  mode : UInt8
  output : UInt8
  direction : UInt8
  settle : List Nat
  wait : List Nat
  outputMode : mode &&& 0x10 ≠ 0
  low : tipOf output direction = false
  enough : 5680 ≤ wait.sum

/-- A byte is asked for in input mode by a transition with TIP low. -/
structure ResponseByte where
  mode : UInt8
  output : UInt8
  direction : UInt8
  wait : List Nat
  inputMode : mode &&& 0x10 = 0
  low : tipOf output direction = false
  enough : 7040 ≤ wait.sum

/-- TIP and BYTEACK go up together. -/
structure Raise where
  output : UInt8
  direction : UInt8
  unixSeconds : Int
  wait : List Nat
  tipHigh : tipOf output direction = true
  byteAckHigh : byteAckOf output direction = true
  enough : 4880 ≤ wait.sum

def RequestByte.byteAck (b : RequestByte) : Bool := byteAckOf b.output b.direction
def ResponseByte.byteAck (b : ResponseByte) : Bool := byteAckOf b.output b.direction

/-- A request, and as much of the answer as the host wants; every transition but the first
    of each turns BYTEACK round. -/
structure Transaction where
  request : List RequestByte
  ends : Raise
  response : List ResponseByte
  closes : Raise
  nonempty : request ≠ []
  requestTurns : (request.map RequestByte.byteAck).IsChain (· ≠ ·)
  responseTurns : (response.map ResponseByte.byteAck).IsChain (· ≠ ·)

def RequestByte.steps (b : RequestByte) : List HostStep :=
  [.auxiliaryControl b.mode, .stage b.value] ++ ticks b.settle ++
    [.portB b.output b.direction 0] ++ ticks b.wait

def ResponseByte.steps (b : ResponseByte) : List HostStep :=
  [.auxiliaryControl b.mode, .portB b.output b.direction 0] ++ ticks b.wait

def Raise.steps (r : Raise) : List HostStep :=
  .portB r.output r.direction r.unixSeconds :: ticks r.wait

def Transaction.steps (t : Transaction) : List HostStep :=
  t.request.flatMap RequestByte.steps ++ t.ends.steps ++
    (t.response.flatMap ResponseByte.steps ++ t.closes.steps)

/-- The packet of the request. -/
def Transaction.bytes (t : Transaction) : List UInt8 := t.request.map RequestByte.value

/-! ## What the adapter sees -/

/-- The byte at a position of the answer; with the last one TREQ goes up. -/
def clocked (output : List UInt8) (position : Nat) : List Event :=
  .shiftIn (output.getD position 0) ::
    (if output.length ≤ position + 1 then [.treq true] else [])

/-- A host that does not read anything leaves the lines as they are. -/
def responseEvents (output : List UInt8) (count : Nat) : List Event :=
  if count = 0 then []
  else (List.range count).flatMap (clocked output) ++ [.treq true, .idleAck]

def Transaction.events (t : Transaction) (cells : Nat → UInt8) : List Event :=
  t.request.map (fun _ => Event.shiftOut) ++
    [.treq true, .packet t.bytes, .treq false, .idleAck] ++
    responseEvents (answer cells t.ends.unixSeconds t.bytes) t.response.length

/-- Every answer comes from the cells as the packets before it left them. -/
def history : (Nat → UInt8) → List Transaction → List Event
  | _, [] => []
  | cells, t :: ts => t.events cells ++ history (latest cells (stores t.bytes)) ts

/-- Between two transactions: the lines are up, and no counter runs. -/
structure Rest (s : CudaController) : Prop where
  attached : s.via.isSome
  tip : s.lastTip = true
  byteAck : s.lastByteAck = true
  input : s.input = []
  responseTreq : s.responseTreqCycles ≤ 0
  idleAck : s.idleAckCycles ≤ 0
  shift : s.shiftCycles ≤ 0

/-! ## Transitions -/

section
variable {s : CudaController} {v : View}

theorem auxiliaryControl_writeRegister (via : Via6522) (value : UInt8) :
    (via.writeRegister 11 value).auxiliaryControl = value := rfl

theorem portBChanged_low (unixSeconds : Int) {output direction : UInt8}
    (hlow : tipOf output direction = false)
    (hturn : s.lastTip = true ∨ byteAckOf output direction ≠ s.lastByteAck) :
    s.portBChanged output direction unixSeconds =
      { s with lastTip := false, lastByteAck := byteAckOf output direction }.handshake := by
  unfold tipOf at hlow
  unfold byteAckOf at hturn ⊢
  rw [portBChanged]
  dsimp only
  rw [hlow, if_neg]
  · rfl
  · rintro ⟨htip, hack⟩
    rcases hturn with h | h
    · rw [h] at htip
      cases htip
    · exact h hack

theorem portBChanged_high (unixSeconds : Int) {output direction : UInt8}
    (htip : tipOf output direction = true) (hack : byteAckOf output direction = true)
    (hdown : s.lastTip = false) : s.portBChanged output direction unixSeconds =
      { s with lastTip := true, lastByteAck := true }.endTransaction unixSeconds := by
  unfold tipOf at htip
  unfold byteAckOf at hack
  rw [portBChanged]
  dsimp only
  rw [htip, hack, hdown]
  rfl

/-- A byte of the request is latched. -/
def View.latch (v : View) (b : RequestByte) : View :=
  { v with
    input := v.input ++ [b.value]
    tip := false
    byteAck := b.byteAck
    events := v.events ++ [.shiftOut] }

/-- A byte of the answer is clocked out. -/
def View.clock (v : View) (b : ResponseByte) : View :=
  { v with
    position := if v.position < v.output.length then v.position + 1 else v.position
    tip := false
    byteAck := b.byteAck
    events := v.events ++ clocked v.output v.position }

theorem requestByte_at (h : At s v) (b : RequestByte)
    (hturn : v.tip = true ∨ b.byteAck ≠ v.byteAck) : At (run step s b.steps) (v.latch b) := by
  obtain ⟨⟨hvia, htreq, hidle, hshift⟩, rfl⟩ := h
  obtain ⟨via, hvia⟩ := Option.isSome_iff_exists.1 hvia
  have hstaged : run step s [.auxiliaryControl b.mode, .stage b.value] =
      { s with via := some (via.writeRegister 11 b.mode), stagedInput := some b.value } := by
    simp [run, step, hvia, shiftByteFromHost]
  rw [RequestByte.steps, run_append, run_append, run_append, hstaged,
    run_ticks_calm b.settle (by exact ⟨rfl, htreq, hidle, hshift⟩), run_cons, run_nil]
  have hlatched := portBChanged_low 0 b.low (s := { s with
    via := some (via.writeRegister 11 b.mode), stagedInput := some b.value }) hturn
  simp only [handshake] at hlatched
  rw [if_pos (by rw [auxiliaryControl_writeRegister]; exact b.outputMode)] at hlatched
  simp only [step]
  rw [hlatched]
  exact run_ticks_shift b.wait rfl htreq hidle (by decide : (0 : Int) < 5680)
    (Int.ofNat_le.2 b.enough)

theorem responseByte_at (h : At s v) (b : ResponseByte)
    (hturn : v.tip = true ∨ b.byteAck ≠ v.byteAck) : At (run step s b.steps) (v.clock b) := by
  obtain ⟨⟨hvia, htreq, hidle, hshift⟩, rfl⟩ := h
  obtain ⟨via, hvia⟩ := Option.isSome_iff_exists.1 hvia
  have hsent := portBChanged_low 0 b.low (s := { s with
    via := some (via.writeRegister 11 b.mode) }) hturn
  simp only [handshake] at hsent
  rw [if_neg (by rw [auxiliaryControl_writeRegister]; exact not_not.2 b.inputMode)] at hsent
  have hstart : run step s b.steps = run step
      ({ s with via := some (via.writeRegister 11 b.mode) }.portBChanged b.output b.direction 0)
      (ticks b.wait) := by
    simp [ResponseByte.steps, run, step, hvia]
  rw [hstart, hsent]
  have hdone := run_ticks_shift b.wait (s := (CudaController.sendNextByte
    { s with
      via := some (via.writeRegister 11 b.mode)
      lastTip := false
      lastByteAck := byteAckOf b.output b.direction })) rfl htreq hidle (by decide : (0 : Int) < 7040)
    (Int.ofNat_le.2 b.enough)
  have hclocked : shiftEvents (CudaController.sendNextByte
      { s with
        via := some (via.writeRegister 11 b.mode)
        lastTip := false
        lastByteAck := byteAckOf b.output b.direction }) = clocked s.output s.outputPosition := by
    simp only [shiftEvents, sendNextByte, clocked, Bool.false_eq_true, if_false, decide_eq_true_eq]
    by_cases hmore : s.outputPosition < s.output.length
    · rw [if_pos hmore]
    · rw [if_neg hmore, if_pos (by omega), if_pos (by omega)]
  rw [hclocked] at hdone
  exact hdone

/-- Bytes one after the other, where one byte turns the view by `turn`. -/
theorem bytes_at {β : Type*} {steps : β → List HostStep} {ack : β → Bool} {turn : View → β → View}
    (hstep : ∀ {s v}, At s v → ∀ b, (v.tip = true ∨ ack b ≠ v.byteAck) →
      At (run step s (steps b)) (turn v b))
    (hack : ∀ v b, (turn v b).byteAck = ack b) {bs : List β}
    (hturns : (bs.map ack).IsChain (· ≠ ·)) (h : At s v)
    (hfirst : ∀ b ∈ bs.head?, v.tip = true ∨ ack b ≠ v.byteAck) :
    At (run step s (bs.flatMap steps)) (bs.foldl turn v) := by
  induction bs generalizing s v with
  | nil => exact h
  | cons b bs ih =>
    rw [List.flatMap_cons, run_append, List.foldl_cons]
    refine ih hturns.tail (hstep h b (hfirst b rfl)) fun b' hb' => Or.inr ?_
    obtain ⟨bs', rfl⟩ : ∃ bs', bs = b' :: bs' := List.head?_eq_some_iff.1 hb'
    rw [hack]
    exact (List.isChain_cons_cons.1 hturns).1.symm

theorem answer_ne_nil (cells : Nat → UInt8) (unixSeconds : Int) (packet : List UInt8) :
    answer cells unixSeconds packet ≠ [] := by
  rw [answer]
  split_ifs
  · exact List.cons_ne_nil _ _
  · exact List.cons_ne_nil _ _
  · exact List.cons_ne_nil _ _
  · exact List.cons_ne_nil _ _

theorem endTransaction_request {via : Via6522} (hvia : s.via = some via) (hinput : s.input ≠ [])
    (unixSeconds : Int) : ∃ pram, cellsOf pram = latest (cellsOf s.pram) (stores s.input) ∧
      s.endTransaction unixSeconds =
        { s with
          via := some (via.setPortBInputBit treqBit true)
          pram := pram
          input := []
          output := answer (cellsOf s.pram) unixSeconds s.input
          outputPosition := 0
          synchronousAttention := false
          idleAckCycles := 4880
          responseTreqCycles := 1040
          events := s.events ++ [.treq true, .packet s.input] } := by
  obtain ⟨pram, hcells, hpacket⟩ := finishPacket_eq
    { s with
      via := some (via.setPortBInputBit treqBit true)
      synchronousAttention := false
      idleAckCycles := 4880
      events := s.events ++ [.treq true] } unixSeconds
  refine ⟨pram, hcells, ?_⟩
  have hsome : s.input.isEmpty = false := List.isEmpty_eq_false_iff.2 hinput
  have hanswer : (answer (cellsOf s.pram) unixSeconds s.input).isEmpty = false :=
    List.isEmpty_eq_false_iff.2 (answer_ne_nil _ _ _)
  simp only [endTransaction, setTreq, callVia, hvia, hsome, Option.isSome_some, Bool.not_false,
    if_true, hpacket, hanswer, Bool.and_true, List.append_assoc, List.singleton_append]

theorem endTransaction_response {via : Via6522} (hvia : s.via = some via) (hinput : s.input = [])
    (unixSeconds : Int) : s.endTransaction unixSeconds =
      { s with
        via := some (via.setPortBInputBit treqBit true)
        output := []
        outputPosition := 0
        synchronousAttention := false
        idleAckCycles := 4880
        events := s.events ++ [.treq true] } := by
  simp [endTransaction, setTreq, callVia, hvia, hinput]

/-- The lines go up after a request. -/
theorem raise_request_at (h : At s v) (r : Raise) (htip : v.tip = false) (hinput : v.input ≠ []) :
    At (run step s r.steps)
      { cells := latest v.cells (stores v.input)
        input := []
        output := answer v.cells r.unixSeconds v.input
        position := 0
        tip := true
        byteAck := true
        events := v.events ++ [.treq true, .packet v.input, .treq false, .idleAck] } := by
  obtain ⟨⟨hvia, htreq, hidle, hshift⟩, rfl⟩ := h
  obtain ⟨via, hvia⟩ := Option.isSome_iff_exists.1 hvia
  obtain ⟨pram, hcells, hend⟩ := endTransaction_request
    (s := { s with lastTip := true, lastByteAck := true }) hvia hinput r.unixSeconds
  have hdone := run_ticks_treq r.wait (s := { s with
      via := some (via.setPortBInputBit treqBit true)
      pram := pram
      input := []
      output := answer (cellsOf s.pram) r.unixSeconds s.input
      outputPosition := 0
      lastTip := true
      lastByteAck := true
      synchronousAttention := false
      idleAckCycles := 4880
      responseTreqCycles := 1040
      events := s.events ++ [.treq true, .packet s.input] }) rfl hshift
    (by decide : (0 : Int) < 1040) (by decide : (1040 : Int) ≤ 4880) (Int.ofNat_le.2 r.enough)
  rw [Raise.steps, run_cons, step, portBChanged_high r.unixSeconds r.tipHigh r.byteAckHigh htip, hend]
  simp only [view, View.log, hcells, List.append_assoc, List.cons_append, List.nil_append] at hdone ⊢
  exact hdone

/-- The lines go up after an answer. -/
theorem raise_response_at (h : At s v) (r : Raise) (htip : v.tip = false) (hinput : v.input = []) :
    At (run step s r.steps)
      { v with
        output := []
        position := 0
        tip := true
        byteAck := true
        events := v.events ++ [.treq true, .idleAck] } := by
  obtain ⟨⟨hvia, htreq, hidle, hshift⟩, rfl⟩ := h
  obtain ⟨via, hvia⟩ := Option.isSome_iff_exists.1 hvia
  have hend := endTransaction_response
    (s := { s with lastTip := true, lastByteAck := true }) hvia hinput r.unixSeconds
  have hdone := run_ticks_idle r.wait (s := { s with
      via := some (via.setPortBInputBit treqBit true)
      output := []
      outputPosition := 0
      lastTip := true
      lastByteAck := true
      synchronousAttention := false
      idleAckCycles := 4880
      events := s.events ++ [.treq true] }) rfl htreq hshift (by decide : (0 : Int) < 4880)
    (Int.ofNat_le.2 r.enough)
  rw [Raise.steps, run_cons, step, portBChanged_high r.unixSeconds r.tipHigh r.byteAckHigh htip, hend]
  simp only [view, View.log, List.append_assoc, List.cons_append, List.nil_append] at hdone ⊢
  exact hdone

/-- Lines that are up stay up. -/
theorem raise_idle_at (h : At s v) (r : Raise) (htip : v.tip = true) (hack : v.byteAck = true) :
    At (run step s r.steps) v := by
  obtain ⟨hcalm, rfl⟩ := h
  have hsame : s.portBChanged r.output r.direction r.unixSeconds = s := by
    have htip' : s.lastTip = true := htip
    have hack' : s.lastByteAck = true := hack
    have hhigh := r.tipHigh
    have hackHigh := r.byteAckHigh
    unfold tipOf at hhigh
    unfold byteAckOf at hackHigh
    rw [portBChanged]
    dsimp only
    rw [hhigh, hackHigh, htip', hack', if_pos ⟨rfl, rfl⟩]
  rw [Raise.steps, run_cons, step, hsame]
  exact At.wait r.wait ⟨hcalm, rfl⟩

theorem foldl_latch (bs : List RequestByte) (v : View) : bs.foldl View.latch v =
    { v with
      input := v.input ++ bs.map RequestByte.value
      tip := v.tip && bs.isEmpty
      byteAck := (bs.map RequestByte.byteAck).getLastD v.byteAck
      events := v.events ++ bs.map fun _ => Event.shiftOut } := by
  induction bs generalizing v with
  | nil => simp
  | cons b bs ih =>
    rw [List.foldl_cons, ih]
    simp [View.latch, -List.getLastD_eq_getLast?, List.getLastD_cons]

/-- Behind the end of the answer all positions are alike. -/
theorem clocked_min (output : List UInt8) (i : Nat) :
    clocked output (min i output.length) = clocked output i := by
  rcases Nat.le_total i output.length with h | h
  · rw [Nat.min_eq_left h]
  · rw [Nat.min_eq_right h, clocked, clocked, if_pos (by omega), if_pos (by omega),
      List.getD_eq_getElem?_getD, List.getD_eq_getElem?_getD,
      List.getElem?_eq_none (Nat.le_refl _), List.getElem?_eq_none h]

theorem foldl_clock (bs : List ResponseByte) {v : View} {i : Nat}
    (hposition : v.position = min i v.output.length) : bs.foldl View.clock v =
    { v with
      position := min (i + bs.length) v.output.length
      tip := v.tip && bs.isEmpty
      byteAck := (bs.map ResponseByte.byteAck).getLastD v.byteAck
      events := v.events ++ (List.range bs.length).flatMap fun j => clocked v.output (i + j) } := by
  induction bs generalizing v i with
  | nil =>
    simp only [List.foldl_nil, List.length_nil, Nat.add_zero, ← hposition, List.isEmpty_nil,
      Bool.and_true, List.map_nil, List.getLastD_nil, List.range_zero, List.flatMap_nil,
      List.append_nil]
  | cons b bs ih =>
    have hnext : (v.clock b).position = min (i + 1) (v.clock b).output.length := by
      show (if v.position < v.output.length then v.position + 1 else v.position)
        = min (i + 1) v.output.length
      rw [hposition]
      split_ifs <;> omega
    have hclocked : clocked v.output v.position = clocked v.output i := by
      rw [hposition, clocked_min]
    rw [List.foldl_cons, ih hnext]
    simp only [View.clock, hclocked, List.length_cons, List.range_succ_eq_map, List.flatMap_cons,
      List.flatMap_map, Nat.add_zero, List.map_cons, List.getLastD_cons, List.isEmpty_cons,
      Bool.and_false, Bool.false_and, List.append_assoc]
    congr 1
    · congr 1
      omega
    · refine congrArg _ (congrArg _ (List.flatMap_congr fun j _ => ?_))
      congr 1
      omega

/-- The lines go up, however much of the answer was read. -/
theorem responses_at {output : List UInt8} (t : Transaction) (h : At s v) (htip : v.tip = true)
    (hack : v.byteAck = true) (hinput : v.input = []) (houtput : v.output = output)
    (hposition : v.position = 0) :
    ∃ v', At (run step s (t.response.flatMap ResponseByte.steps ++ t.closes.steps)) v' ∧
      v'.tip = true ∧ v'.byteAck = true ∧ v'.input = [] ∧ v'.cells = v.cells ∧
      v'.events = v.events ++ responseEvents output t.response.length := by
  subst houtput
  have hread := bytes_at responseByte_at (fun _ _ => rfl) t.responseTurns h
    fun _ _ => Or.inl htip
  rw [foldl_clock (i := 0) t.response (by rw [hposition, Nat.zero_min])] at hread
  rw [run_append, responseEvents]
  rcases hresponse : t.response with _ | ⟨b, bs⟩
  · exact ⟨v, by simpa [hresponse] using raise_idle_at h t.closes htip hack, htip, hack, hinput,
      rfl, by simp⟩
  · rw [hresponse] at hread
    refine ⟨_, raise_response_at hread t.closes (by simp) hinput, rfl, rfl, hinput, rfl, ?_⟩
    simp

theorem transaction_at (t : Transaction) (h : At s v) (htip : v.tip = true)
    (hinput : v.input = []) :
    ∃ v', At (run step s t.steps) v' ∧ v'.tip = true ∧ v'.byteAck = true ∧ v'.input = [] ∧
      v'.cells = latest v.cells (stores t.bytes) ∧ v'.events = v.events ++ t.events v.cells := by
  have hrequest := bytes_at requestByte_at (fun _ _ => rfl) t.requestTurns h fun _ _ => Or.inl htip
  rw [foldl_latch, hinput, List.nil_append] at hrequest
  have hne : t.request.map RequestByte.value ≠ [] := by
    rw [Ne, List.map_eq_nil_iff]
    exact t.nonempty
  have hempty : t.request.isEmpty = false := List.isEmpty_eq_false_iff.2 t.nonempty
  have hends := raise_request_at hrequest t.ends (by simp [hempty]) hne
  obtain ⟨v', hat, htip', hack', hinput', hcells, hevents⟩ :=
    responses_at t hends rfl rfl rfl rfl rfl
  refine ⟨v', ?_, htip', hack', hinput', hcells, ?_⟩
  · rw [Transaction.steps, run_append step s (_ ++ t.ends.steps),
      run_append step s (t.request.flatMap RequestByte.steps)]
    exact hat
  · rw [hevents, Transaction.events]
    simp only [Transaction.bytes, List.append_assoc]

theorem Rest.at (h : Rest s) : At s (view s) :=
  ⟨⟨h.attached, h.responseTreq, h.idleAck, h.shift⟩, rfl⟩

theorem At.rest (h : At s v) (htip : v.tip = true) (hack : v.byteAck = true)
    (hinput : v.input = []) : Rest s := by
  obtain ⟨hcalm, rfl⟩ := h
  exact ⟨hcalm.attached, htip, hack, hinput, hcalm.responseTreq, hcalm.idleAck, hcalm.shift⟩

/-- One transaction, from rest to rest. -/
theorem step_transaction (h : Rest s) (t : Transaction) :
    Rest (run step s t.steps) ∧
      cellsOf (run step s t.steps).pram = latest (cellsOf s.pram) (stores t.bytes) ∧
      (run step s t.steps).events = s.events ++ t.events (cellsOf s.pram) := by
  obtain ⟨v', hat, htip, hack, hinput, hcells, hevents⟩ :=
    transaction_at t h.at h.tip h.input
  refine ⟨hat.rest htip hack hinput, ?_, ?_⟩
  · exact (congrArg View.cells hat.view).trans hcells
  · exact (congrArg View.events hat.view).trans hevents

/-- Every sequence of transactions, from rest to rest. -/
theorem run_steps (h : Rest s) (ts : List Transaction) :
    Rest (run step s (ts.flatMap Transaction.steps)) ∧
      cellsOf (run step s (ts.flatMap Transaction.steps)).pram
        = latest (cellsOf s.pram) (ts.flatMap fun t => stores t.bytes) ∧
      (run step s (ts.flatMap Transaction.steps)).events
        = s.events ++ history (cellsOf s.pram) ts := by
  induction ts generalizing s with
  | nil => exact ⟨h, rfl, (List.append_nil _).symm⟩
  | cons t ts ih =>
    obtain ⟨hrest, hcells, hevents⟩ := step_transaction h t
    obtain ⟨ihrest, ihcells, ihevents⟩ := ih hrest
    rw [List.flatMap_cons, run_append, List.flatMap_cons, latest_append]
    refine ⟨ihrest, by rw [ihcells, hcells], ?_⟩
    rw [ihevents, hevents, hcells, List.append_assoc]
    rfl

end

/-! ## Main result -/

/-- A reset controller is at rest. -/
theorem rest_reset {s : CudaController} (h : s.via.isSome) : Rest s.reset := by
  obtain ⟨via, hvia⟩ := Option.isSome_iff_exists.1 h
  have hreset : s.reset.via.isSome := by simp [reset, setTreq, callVia, hvia]
  refine ⟨hreset, ?_, ?_, ?_, ?_, ?_, ?_⟩ <;> simp [reset, setTreq, callVia, hvia]

/-- Every sequence of transactions leaves the controller at rest; the adapter sees the packets
    as they were sent and the answers in order, and the parameter RAM is one array of cells. -/
theorem run_transactions (s : CudaController) (h : Rest s) (ts : List Transaction) :
    Rest (run step s (ts.flatMap Transaction.steps)) ∧
      cellsOf (run step s (ts.flatMap Transaction.steps)).pram
        = latest (cellsOf s.pram) (ts.flatMap fun t => stores t.bytes) ∧
      (run step s (ts.flatMap Transaction.steps)).events
        = s.events ++ history (cellsOf s.pram) ts :=
  run_steps h ts

/-- Port B with TIP low and BYTEACK as given. -/
def lowOutput (ack : Bool) : UInt8 := if ack then 0x10 else 0x00

theorem tipOf_lowOutput (ack : Bool) : tipOf (lowOutput ack) 0x30 = false := by cases ack <;> decide

theorem byteAckOf_lowOutput (ack : Bool) : byteAckOf (lowOutput ack) 0x30 = ack := by
  cases ack <;> decide

theorem outputMode_shift : (0x10 : UInt8) &&& 0x10 ≠ 0 := by decide

theorem sum_single (n : Nat) : n ≤ [n].sum := by simp

/-- The bytes of a packet, with BYTEACK turned round at each. -/
def requestBytes : Bool → List UInt8 → List RequestByte
  | _, [] => []
  | ack, value :: values =>
    { value := value
      mode := 0x10
      output := lowOutput ack
      direction := 0x30
      settle := []
      wait := [5680]
      outputMode := outputMode_shift
      low := tipOf_lowOutput ack
      enough := sum_single 5680 } :: requestBytes (!ack) values

theorem requestBytes_head (ack : Bool) (values : List UInt8) :
    ∀ b ∈ (requestBytes ack values).head?, b.byteAck = ack := by
  intro b hb
  cases values with
  | nil => simp [requestBytes] at hb
  | cons value values =>
    obtain rfl := Option.some.inj hb
    exact byteAckOf_lowOutput ack

theorem requestBytes_turns (ack : Bool) (values : List UInt8) :
    ((requestBytes ack values).map RequestByte.byteAck).IsChain (· ≠ ·) := by
  induction values generalizing ack with
  | nil => exact .nil
  | cons value values ih =>
    rw [requestBytes, List.map_cons, List.isChain_cons]
    refine ⟨fun b hb => ?_, ih (!ack)⟩
    rw [List.head?_map] at hb
    obtain ⟨b', hb', rfl⟩ := Option.map_eq_some_iff.1 hb
    rw [requestBytes_head _ _ b' hb', RequestByte.byteAck, byteAckOf_lowOutput]
    cases ack <;> decide

theorem requestBytes_values (ack : Bool) (values : List UInt8) :
    (requestBytes ack values).map RequestByte.value = values := by
  induction values generalizing ack with
  | nil => rfl
  | cons value values ih => rw [requestBytes, List.map_cons, ih]

theorem tipOf_high : tipOf 0x30 0x30 = true := by decide
theorem byteAckOf_high : byteAckOf 0x30 0x30 = true := by decide

def raiseBoth : Raise where
  output := 0x30
  direction := 0x30
  unixSeconds := 0
  wait := [4880]
  tipHigh := tipOf_high
  byteAckHigh := byteAckOf_high
  enough := sum_single 4880

/-- A packet whose answer is not read. -/
def sendOnly (value : UInt8) (values : List UInt8) : Transaction where
  request := requestBytes true (value :: values)
  ends := raiseBoth
  response := []
  closes := raiseBoth
  nonempty := List.cons_ne_nil _ _
  requestTurns := requestBytes_turns true (value :: values)
  responseTurns := .nil

theorem sendOnly_bytes (value : UInt8) (values : List UInt8) :
    (sendOnly value values).bytes = value :: values := requestBytes_values _ _

def attached : CudaController := { via := some {} }

theorem rest_attached : Rest attached := ⟨rfl, rfl, rfl, rfl, by decide, by decide, by decide⟩

theorem run_transactions_attached : Rest attached ∧
    (Rest (run step attached ([sendOnly 1 [0x0c, 0, 7, 42]].flatMap Transaction.steps)) ∧
      cellsOf (run step attached ([sendOnly 1 [0x0c, 0, 7, 42]].flatMap Transaction.steps)).pram
        = latest (cellsOf attached.pram)
          ([sendOnly 1 [0x0c, 0, 7, 42]].flatMap fun t => stores t.bytes) ∧
      (run step attached ([sendOnly 1 [0x0c, 0, 7, 42]].flatMap Transaction.steps)).events
        = attached.events ++ history (cellsOf attached.pram) [sendOnly 1 [0x0c, 0, 7, 42]]) :=
  ⟨rest_attached, run_transactions attached rest_attached [sendOnly 1 [0x0c, 0, 7, 42]]⟩

/-! ## Addresses that come round -/

/-- The memory without an end to its addresses. -/
def linearCell (address : Nat) : Option Nat :=
  if 0x100 ≤ address ∧ address < 0x200 then some (address - 0x100) else none

theorem mem_storesFrom {cell : Nat → Option Nat} {n : Nat} {values : List UInt8}
    {w : Nat × List UInt8} : w ∈ storesFrom cell n values ↔
      ∃ i value c, values[i]? = some value ∧ cell (n + i) = some c ∧ w = (c, [value]) := by
  induction values generalizing n with
  | nil => simp [storesFrom]
  | cons value values ih =>
    rw [storesFrom, List.mem_append, ih, Option.mem_toList, Option.map_eq_some_iff]
    constructor
    · rintro (⟨c, hc, rfl⟩ | ⟨i, value', c, hvalue, hc, rfl⟩)
      · exact ⟨0, value, c, rfl, hc, rfl⟩
      · exact ⟨i + 1, value', c, hvalue, by rw [← hc]; congr 1; omega, rfl⟩
    · rintro ⟨i, value', c, hvalue, hc, rfl⟩
      rcases i with _ | i
      · obtain rfl := Option.some.inj hvalue
        exact Or.inl ⟨c, hc, rfl⟩
      · exact Or.inr ⟨i, value', c, hvalue, by rw [← hc]; congr 1; omega, rfl⟩

theorem storesIn_memory (memory : Nat → Option Nat) (values : List UInt8) :
    storesIn memory (1 :: 0x08 :: 1 :: 1 :: values) = storesFrom memory 0x101 values := by
  have hcommand : (1 :: 0x08 :: 1 :: 1 :: values).getD 1 0 = 0x08 := rfl
  have haddress : (addressOf (1 :: 0x08 :: 1 :: 1 :: values)).toNat = 0x101 := by
    have hbytes : addressOf (1 :: 0x08 :: 1 :: 1 :: values) = addressOf [1, 0x08, 1, 1] := rfl
    rw [hbytes]
    decide
  rw [storesIn, if_neg (by simp), hcommand, if_neg (by decide), if_pos rfl, haddress]
  rfl

/-- So many bytes from cell 1 on that their addresses come round to cell 0. -/
def roundTheEnd : Transaction := sendOnly 1 (0x08 :: 1 :: 1 :: List.replicate 65536 0x55)

/-- The packet writes cell 0, which lies before the cells that it addresses. -/
theorem roundTheEnd_writes : ¬ ∀ (s : CudaController) (ts : List Transaction), Rest s →
    cellsOf (run step s (ts.flatMap Transaction.steps)).pram
      = latest (cellsOf s.pram) (ts.flatMap fun t => storesIn linearCell t.bytes) := by
  intro h
  have hlinear := congrFun (h attached [roundTheEnd] rest_attached) 0
  rw [(run_steps rest_attached [roundTheEnd]).2.1] at hlinear
  simp only [List.flatMap_cons, List.flatMap_nil, List.append_nil, roundTheEnd, sendOnly_bytes,
    stores, storesIn_memory] at hlinear
  have hin : ((0, [0x55]) : Nat × List UInt8)
      ∈ storesFrom memoryCell 0x101 (List.replicate 65536 0x55) :=
    mem_storesFrom.2 ⟨65535, 0x55, 0, by rw [List.getElem?_replicate, if_pos (by decide)], rfl, rfl⟩
  have hout : lastWritten 0 (storesFrom linearCell 0x101 (List.replicate 65536 0x55)) = none := by
    refine lastWritten_eq_none.2 fun w hw => ?_
    obtain ⟨i, value, c, -, hc, rfl⟩ := mem_storesFrom.1 hw
    unfold linearCell at hc
    split_ifs at hc
    obtain rfl := Option.some.inj hc
    rw [cellAt, if_neg (by show ¬ 0x101 + i - 0x100 ≤ 0; omega)]
  rw [latest, latest, hout] at hlinear
  rcases hlast : lastWritten 0 (storesFrom memoryCell 0x101 (List.replicate 65536 0x55)) with _ | b
  · exact absurd (lastWritten_eq_none.1 hlast _ hin) (by decide)
  · obtain ⟨w, hw, hb⟩ := exists_of_lastWritten hlast
    obtain ⟨i, value, c, hvalue, -, rfl⟩ := mem_storesFrom.1 hw
    obtain rfl : value = 0x55 := List.eq_of_mem_replicate (List.mem_of_getElem? hvalue)
    rw [hlast, Option.getD_some] at hlinear
    obtain ⟨j, hj, -⟩ := cellAt_eq_some.1 hb
    obtain rfl := List.mem_singleton.1 (List.mem_of_getElem? hj)
    exact absurd hlinear (by decide)

end CuteMac.Cuda

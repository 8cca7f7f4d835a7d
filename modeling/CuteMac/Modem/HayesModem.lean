/-
  The modem between the guest and its connections (`HayesModem.cpp`).

  * `Connection`: the virtual functions of a connection; `dialled` are those of
    the three kinds of connections;
  * `handleCommand`, `dial`: the commands;
  * `receiveOnlineByte`: the escape sequence `+++`, whose characters are withheld
    until it is clear that they do not belong to one;
  * `Settled`: how many characters are withheld, in any reachable state;
  * `Accounted`, `escape_costs_no_data`: where the guest's bytes are.

  Qt's case tables and `QString::toUInt` are arguments, and so is the connection
  that a dialled target gives.  A TCP connection has a thread of its own, which
  enqueues bytes and may lose the carrier at any time: it takes steps between the
  others.
-/
import CuteMac.Config.Configuration
import CuteMac.Lib.Machine
import CuteMac.Modem.Ppp
import CuteMac.Modem.Slip
import CuteMac.Modem.Telnet

namespace CuteMac.Modem

open Machine (run Guarded)
open Config (SerialDeviceConfiguration SerialPhonebookEntry trimmed startsWith)

/-! ## Connections -/

def plus : UInt8 := 0x2b

/-- The virtual functions of `HayesModem::Connection`: `send` and `poll` give the bytes that
    are enqueued for the guest.  A plus sign does not cost the carrier. -/
structure Connection (κ : Type) where
  poll : κ → List UInt8 × κ
  send : κ → UInt8 → List UInt8 × κ
  connected : κ → Bool
  connected_send_plus : ∀ c, connected (send c plus).2 = connected c

/-- A `TcpConnection` with its `m_connected`. -/
structure TcpLine where
  connection : TcpConnection
  connected : Bool

/-- The three kinds of connections. -/
inductive Dialled (σ : Type) where
  | tcp (line : TcpLine)
  | slip (connection : SlipConnection σ)
  | ppp (connection : PppConnection σ)

namespace Dialled

variable {σ : Type} [Slirp σ]

def connected : Dialled σ → Bool
  | tcp line => line.connected
  | slip c => c.network.connected
  | ppp c => c.network.connected

def poll (fuel : Nat) : Dialled σ → List UInt8 × Dialled σ
  | tcp line => ([], tcp line)
  | slip c => ((c.poll fuel).incoming.drop c.incoming.length, slip (c.poll fuel))
  | ppp c => ((c.poll fuel).incoming.drop c.incoming.length, ppp (c.poll fuel))

def send (fuel : Nat) (c : Dialled σ) (value : UInt8) : List UInt8 × Dialled σ :=
  match c with
  | tcp line => ([], tcp { line with connection := line.connection.send value })
  | slip c => ((c.send fuel value).incoming.drop c.incoming.length, slip (c.send fuel value))
  | ppp c => ((c.send fuel value).incoming.drop c.incoming.length, ppp (c.send fuel value))

end Dialled

section
variable {σ : Type}

theorem SlipConnection.append_network (s : SlipConnection σ) (value : UInt8) :
    (s.append value).network = s.network := by
  unfold SlipConnection.append
  split_ifs <;> rfl

theorem PppConnection.append_network (s : PppConnection σ) (value : UInt8) :
    (s.append value).network = s.network := by
  unfold PppConnection.append
  split_ifs <;> rfl

variable [Slirp σ]

/-- A plus sign neither ends a frame nor escapes a byte. -/
theorem SlipConnection.send_plus_network (fuel : Nat) (s : SlipConnection σ) :
    (s.send fuel plus).network = s.network := by
  unfold SlipConnection.send
  rw [if_neg (show ¬ plus = slipEnd by decide), if_neg (show ¬ plus = slipEsc by decide)]
  split_ifs
  · rfl
  · rfl
  · exact SlipConnection.append_network _ _
  · exact SlipConnection.append_network _ _

theorem PppConnection.send_plus_network (fuel : Nat) (s : PppConnection σ) :
    (s.send fuel plus).network = s.network := by
  unfold PppConnection.send
  rw [if_neg (show ¬ plus = 0x7e by decide), if_neg (show ¬ plus = 0x7d by decide)]
  split_ifs
  · rfl
  · exact PppConnection.append_network _ _
  · exact PppConnection.append_network _ _

def dialled (fuel : Nat) : Connection (Dialled σ) where
  poll := Dialled.poll fuel
  send := Dialled.send fuel
  connected := Dialled.connected
  connected_send_plus c := by
    cases c with
    | tcp line => rfl
    | slip c => exact congrArg SerialIpOverEthernet.connected (c.send_plus_network fuel)
    | ppp c => exact congrArg SerialIpOverEthernet.connected (c.send_plus_network fuel)

end

/-! ## The modem -/

/-- What Qt knows about characters and numbers. -/
structure Qt where
  toUpper : String → String
  toCaseFolded : Char → Char
  toUInt : String → Option Nat

namespace Qt

/-- `QString::compare` with `Qt::CaseInsensitive`. -/
def same (q : Qt) (s t : String) : Bool :=
  s.toList.map q.toCaseFolded == t.toList.map q.toCaseFolded

/-- `QString::startsWith` with `Qt::CaseInsensitive`. -/
def startsWith (q : Qt) (s t : String) : Bool :=
  (t.toList.map q.toCaseFolded).isPrefixOf (s.toList.map q.toCaseFolded)

end Qt

/-- `remove(0, count)`, or `mid(count)`. -/
def removeFirst (s : String) (count : Nat) : String := String.ofList (s.toList.drop count)

def normalizedCommand (q : Qt) (command : String) : String :=
  let command := trimmed command
  q.toUpper (if q.startsWith command "AT" then removeFirst command 2 else command)

/-- The host and the port: what is before the last colon and behind it. -/
def parseTcpTarget (q : Qt) (target : String) : Option (String × Nat) :=
  let target := (if q.startsWith target "tcp:" then removeFirst target 4 else target).toList
  let host := String.ofList ((target.reverse.dropWhile (· ≠ ':')).drop 1).reverse
  let port := String.ofList (target.reverse.takeWhile (· ≠ ':')).reverse
  if host = "" ∨ port = "" then none
  else
    match q.toUInt port with
    | none => none
    | some parsedPort =>
      if parsedPort = 0 ∨ 65535 < parsedPort then none
      else if trimmed host = "" then none
      else some (host, parsedPort)

/-- What a connection is opened to. -/
inductive Target where
  | tcp (host : String) (port : Nat) (telnet : Bool)
  | slip (configuration : Config.SerialSlipConfiguration)
  | ppp (configuration : Config.SerialSlipConfiguration)
  deriving DecidableEq

inductive Mode where
  | command
  | online
  deriving DecidableEq, Repr

structure HayesModem (κ : Type) where
  configuration : SerialDeviceConfiguration
  mode : Mode := .command
  echo : Bool := true
  quiet : Bool := false
  commandLine : String := ""
  escapePlusCount : Nat := 0
  connection : Option κ := none
  incoming : List UInt8 := []
  /-- the bytes passed to a connection so far, which no function reads -/
  sent : List UInt8 := []

def defaultSerialModemPhonebook : List SerialPhonebookEntry :=
  [{ number := "1000", target := "slip:libslirp" }, { number := "1001", target := "ppp:libslirp" }]

namespace HayesModem

variable {κ : Type} (K : Connection κ) (q : Qt)

/-- The constructor. -/
def create (configuration : SerialDeviceConfiguration) : HayesModem κ where
  configuration :=
    if configuration.phonebook.isEmpty then
      { configuration with phonebook := defaultSerialModemPhonebook }
    else configuration

def enqueueIncoming (m : HayesModem κ) (bytes : List UInt8) : HayesModem κ :=
  { m with incoming := m.incoming ++ bytes }

/-- With `toLatin1`. -/
def enqueueText (m : HayesModem κ) (text : String) : HayesModem κ :=
  m.enqueueIncoming (text.toList.map fun c => UInt8.ofNat c.toNat)

def result (m : HayesModem κ) (text : String) : HayesModem κ :=
  if m.quiet then m else m.enqueueText ("\r\n" ++ text ++ "\r\n")

def hangup (m : HayesModem κ) : HayesModem κ :=
  { m with
    connection := none
    mode := .command }

def reset (m : HayesModem κ) : HayesModem κ :=
  { m.hangup with
    mode := .command
    echo := true
    quiet := false
    commandLine := ""
    escapePlusCount := 0
    incoming := [] }

def maxPollBytes : Nat := 256

/-- The bytes given to `transmitByte`, and the modem. -/
def poll (m : HayesModem κ) : List UInt8 × HayesModem κ :=
  let m :=
    match m.connection with
    | none => m
    | some c => { m.enqueueIncoming (K.poll c).1 with connection := some (K.poll c).2 }
  (m.incoming.take maxPollBytes, { m with incoming := m.incoming.drop maxPollBytes })

/-- `m_connection && m_connection->connected()` -/
def carrier (m : HayesModem κ) : Bool := m.connection.any K.connected

/-- `m_connection->send(value)` -/
def send (m : HayesModem κ) (value : UInt8) : HayesModem κ :=
  match m.connection with
  | none => m
  | some c =>
    { m.enqueueIncoming (K.send c value).1 with
      connection := some (K.send c value).2
      sent := m.sent ++ [value] }

def sendAll (m : HayesModem κ) (values : List UInt8) : HayesModem κ := values.foldl (send K) m

def receiveOnlineByte (m : HayesModem κ) (value : UInt8) : HayesModem κ :=
  if value = plus then
    let m := { m with escapePlusCount := m.escapePlusCount + 1 }
    if m.escapePlusCount = 3 then
      result { m with mode := .command, escapePlusCount := 0 } "OK"
    else m
  else
    let m :=
      if 0 < m.escapePlusCount ∧ m.carrier K then
        m.sendAll K (List.replicate m.escapePlusCount plus)
      else m
    let m := { m with escapePlusCount := 0 }
    if m.carrier K then m.send K value else result { m with mode := .command } "NO CARRIER"

def resolveDialTarget (m : HayesModem κ) (dialString : String) : Option SerialPhonebookEntry :=
  let number := trimmed dialString
  match m.configuration.phonebook.find? fun entry => q.same entry.number number with
  | some entry => some entry
  | none =>
    if m.configuration.directTcpDialing ∧ (parseTcpTarget q number).isSome then
      some { number := number, target := "tcp:" ++ number, telnet := false }
    else none

/-- The common end of `connectTcp`, `connectSlip` and `connectPpp`, with the connection as
    it is after the time it is given. -/
def connect (m : HayesModem κ) (c : κ) : HayesModem κ :=
  if !K.connected c then m.hangup.result "NO CARRIER"
  else
    result
      { m.hangup with
        connection := some c
        mode := .online } "CONNECT"

def connectTcp (opened : Target → κ) (m : HayesModem κ) (target : String) (telnet : Bool) :
    HayesModem κ :=
  match parseTcpTarget q target with
  | none => m.result "NO CARRIER"
  | some (host, port) => m.connect K (opened (.tcp host port telnet))

def connectSlip (opened : Target → κ) (m : HayesModem κ) : HayesModem κ :=
  if !m.configuration.slip.enabled then m.result "NO CARRIER"
  else m.connect K (opened (.slip m.configuration.slip))

def connectPpp (opened : Target → κ) (m : HayesModem κ) : HayesModem κ :=
  if !m.configuration.slip.enabled then m.result "NO CARRIER"
  else m.connect K (opened (.ppp m.configuration.slip))

def dial (opened : Target → κ) (m : HayesModem κ) (dialString : String) : HayesModem κ :=
  match m.resolveDialTarget q dialString with
  | none => m.result "NO CARRIER"
  | some target =>
    if q.startsWith target.target "slip:" then m.connectSlip K opened
    else if q.startsWith target.target "ppp:" then m.connectPpp K opened
    else if q.startsWith target.target "tcp:" then m.connectTcp K q opened target.target target.telnet
    else m.result "NO CARRIER"

def handleCommand (opened : Target → κ) (m : HayesModem κ) (line : String) : HayesModem κ :=
  let command := normalizedCommand q line
  if command = "" then m.result "OK"
  else if command = "Z" then m.reset.result "OK"
  else if command = "E0" then result { m with echo := false } "OK"
  else if command = "E1" then result { m with echo := true } "OK"
  else if command = "Q0" then result { m with quiet := false } "OK"
  else if command = "Q1" then { m with quiet := true }
  else if command = "H" ∨ command = "H0" then m.hangup.result "OK"
  else if command = "O" ∨ command = "O0" then
    if m.carrier K then result { m with mode := .online } "CONNECT" else m.result "NO CARRIER"
  else if startsWith command "D" then
    let target := removeFirst command 1
    m.dial K q opened
      (if startsWith target "T" ∨ startsWith target "P" then removeFirst target 1 else target)
  else m.result "ERROR"

def receiveCommandByte (opened : Target → κ) (m : HayesModem κ) (value : UInt8) : HayesModem κ :=
  let m := if m.echo then m.enqueueIncoming [value] else m
  if value = 0x0d then handleCommand K q opened { m with commandLine := "" } m.commandLine
  else if value = 0x0a then m
  else if value = 0x08 ∨ value = 0x7f then
    { m with commandLine := String.ofList m.commandLine.toList.dropLast }
  else { m with commandLine := m.commandLine.push (Char.ofNat value.toNat) }

def receiveByte (opened : Target → κ) (m : HayesModem κ) (value : UInt8) : HayesModem κ :=
  if m.mode = .online then m.receiveOnlineByte K value else m.receiveCommandByte K q opened value

/-- What happens to a modem: a byte of the guest, with what opening a connection would give
    now, a poll, a reset, or a step of the connection's own thread. -/
inductive Op (κ : Type) where
  | receive (value : UInt8) (opened : Target → κ)
  | poll
  | reset
  | thread (bytes : List UInt8) (change : κ → κ)

def apply (m : HayesModem κ) : Op κ → HayesModem κ
  | .receive value opened => m.receiveByte K q opened value
  | .poll => (m.poll K).2
  | .reset => m.reset
  | .thread bytes change =>
    { m.enqueueIncoming bytes with connection := m.connection.map change }

/-- The bytes that the guest sends. -/
def received : List (Op κ) → List UInt8
  | [] => []
  | .receive value _ :: ops => value :: received ops
  | .poll :: ops | .reset :: ops | .thread _ _ :: ops => received ops

/-! ## The withheld characters -/

/-- What is withheld is less than an escape sequence, and nothing in command mode. -/
structure Settled (m : HayesModem κ) : Prop where
  lt_three : m.escapePlusCount < 3
  command : m.mode = .command → m.escapePlusCount = 0

@[simp] theorem result_escapePlusCount (m : HayesModem κ) (text : String) :
    (m.result text).escapePlusCount = m.escapePlusCount := by
  unfold result
  split_ifs <;> rfl

@[simp] theorem result_mode (m : HayesModem κ) (text : String) : (m.result text).mode = m.mode := by
  unfold result
  split_ifs <;> rfl

@[simp] theorem result_sent (m : HayesModem κ) (text : String) : (m.result text).sent = m.sent := by
  unfold result
  split_ifs <;> rfl

@[simp] theorem hangup_escapePlusCount (m : HayesModem κ) :
    m.hangup.escapePlusCount = m.escapePlusCount := rfl

@[simp] theorem reset_escapePlusCount (m : HayesModem κ) : m.reset.escapePlusCount = 0 := rfl

variable {K q}

theorem settled_of_count {m : HayesModem κ} (h : m.escapePlusCount = 0) : m.Settled :=
  ⟨by omega, fun _ => h⟩

section
variable {opened : Target → κ} {m : HayesModem κ}

theorem connect_count (c : κ) : (m.connect K c).escapePlusCount = m.escapePlusCount := by
  unfold connect
  split_ifs
  · rw [result_escapePlusCount, hangup_escapePlusCount]
  · rw [result_escapePlusCount]
    rfl

theorem dial_count (dialString : String) :
    (m.dial K q opened dialString).escapePlusCount = m.escapePlusCount := by
  unfold dial
  cases m.resolveDialTarget q dialString with
  | none => exact result_escapePlusCount m _
  | some target =>
    dsimp only
    split_ifs
    · unfold connectSlip
      split_ifs
      · exact result_escapePlusCount m _
      · exact connect_count _
    · unfold connectPpp
      split_ifs
      · exact result_escapePlusCount m _
      · exact connect_count _
    · unfold connectTcp
      cases parseTcpTarget q target.target with
      | none => exact result_escapePlusCount m _
      | some address => exact connect_count _
    · exact result_escapePlusCount m _

/-- A command withholds nothing. -/
theorem handleCommand_count (h : m.escapePlusCount = 0) (line : String) :
    (m.handleCommand K q opened line).escapePlusCount = 0 := by
  unfold handleCommand
  dsimp only
  generalize normalizedCommand q line = command
  split_ifs
  · rw [result_escapePlusCount, h]
  · rw [result_escapePlusCount, reset_escapePlusCount]
  · rw [result_escapePlusCount, h]
  · rw [result_escapePlusCount, h]
  · rw [result_escapePlusCount, h]
  · exact h
  · rw [result_escapePlusCount, hangup_escapePlusCount, h]
  · rw [result_escapePlusCount, h]
  · rw [result_escapePlusCount, h]
  · rw [dial_count, h]
  · rw [dial_count, h]
  · rw [result_escapePlusCount, h]

theorem receiveCommandByte_count (h : m.escapePlusCount = 0) (value : UInt8) :
    (m.receiveCommandByte K q opened value).escapePlusCount = 0 := by
  have hecho : (if m.echo then m.enqueueIncoming [value] else m).escapePlusCount = 0 := by
    split_ifs
    · exact h
    · exact h
  unfold receiveCommandByte
  dsimp only
  generalize (if m.echo then m.enqueueIncoming [value] else m) = m at hecho ⊢
  split_ifs
  · refine handleCommand_count ?_ _
    exact hecho
  · exact hecho
  · exact hecho
  · exact hecho

theorem receiveOnlineByte_settled (h : m.Settled) (hmode : m.mode = .online) (value : UInt8) :
    (m.receiveOnlineByte K value).Settled := by
  have hcount := h.lt_three
  unfold receiveOnlineByte
  dsimp only
  by_cases hplus : value = plus
  · rw [if_pos hplus]
    by_cases hthree : m.escapePlusCount + 1 = 3
    · rw [if_pos hthree]
      exact settled_of_count (result_escapePlusCount _ _)
    · rw [if_neg hthree]
      refine ⟨by dsimp only; omega, fun hcommand => ?_⟩
      rw [show m.mode = .command from hcommand] at hmode
      cases hmode
  · rw [if_neg hplus]
    generalize (if 0 < m.escapePlusCount ∧ m.carrier K = true then
      m.sendAll K (List.replicate m.escapePlusCount plus) else m) = m'
    split_ifs
    · refine settled_of_count ?_
      unfold send
      dsimp only
      cases m'.connection <;> rfl
    · exact settled_of_count (result_escapePlusCount _ _)

theorem apply_settled (m : HayesModem κ) (op : Op κ) (h : m.Settled) : (apply K q m op).Settled := by
  cases op with
  | receive value opened =>
    show (m.receiveByte K q opened value).Settled
    unfold receiveByte
    by_cases hmode : m.mode = .online
    · rw [if_pos hmode]
      exact receiveOnlineByte_settled h hmode value
    · rw [if_neg hmode]
      have hcommand : m.mode = .command := by
        cases hm : m.mode with
        | command => rfl
        | online => exact absurd hm hmode
      exact settled_of_count (receiveCommandByte_count (h.command hcommand) value)
  | poll =>
    show (m.poll K).2.Settled
    unfold poll
    cases m.connection with
    | none => exact ⟨h.lt_three, h.command⟩
    | some c => exact ⟨h.lt_three, h.command⟩
  | reset => exact settled_of_count rfl
  | thread bytes change => exact ⟨h.lt_three, h.command⟩

theorem run_settled (configuration : SerialDeviceConfiguration) (ops : List (Op κ)) :
    (run (apply K q) (create configuration) ops).Settled :=
  Machine.run_inv apply_settled (settled_of_count rfl) ops

end

/-! ## The guest's bytes -/

/-- The guest sends bytes only while the modem is online and its connection is connected. -/
def Talking (K : Connection κ) (m : HayesModem κ) : Op κ → Prop
  | .receive _ _ => m.mode = .online ∧ m.carrier K = true
  | .poll | .thread _ _ => True
  | .reset => False

def escape : List UInt8 := List.replicate 3 plus

/-- What is withheld. -/
def withheld (m : HayesModem κ) : List UInt8 := List.replicate m.escapePlusCount plus

/-- From `m` to `m'` the bytes `guest`, those withheld in `m` among them, were passed to the
    connection, except what is withheld in `m'`; or they end with an escape sequence, the
    first one, which was not passed, and the modem takes commands. -/
def Accounted (m m' : HayesModem κ) (guest : List UInt8) : Prop :=
  (m'.mode = m.mode ∧ ¬ escape <:+: guest ∧ m'.sent ++ m'.withheld = m.sent ++ guest) ∨
  (m'.mode = .command ∧ ¬ escape <:+: guest.dropLast ∧
    ∃ front, guest = front ++ escape ∧ m'.sent = m.sent ++ front)

theorem carrier_iff (m : HayesModem κ) :
    m.carrier K = true ↔ ∃ c, m.connection = some c ∧ K.connected c = true := by
  unfold carrier
  cases m.connection with
  | none => simp
  | some c => simp

/-- Plus signs reach a connection that has the carrier, and leave it the carrier. -/
theorem sendAll_replicate (count : Nat) (m : HayesModem κ) (h : m.carrier K = true) :
    (m.sendAll K (List.replicate count plus)).sent = m.sent ++ List.replicate count plus ∧
      (m.sendAll K (List.replicate count plus)).mode = m.mode ∧
      (m.sendAll K (List.replicate count plus)).carrier K = true := by
  induction count generalizing m with
  | zero => exact ⟨(List.append_nil _).symm, rfl, h⟩
  | succ count ih =>
    obtain ⟨c, hc, hconnected⟩ := (carrier_iff m).mp h
    have hsent : (m.send K plus).sent = m.sent ++ [plus] := by
      unfold send
      rw [hc]
    have hmode : (m.send K plus).mode = m.mode := by
      unfold send
      rw [hc]
      rfl
    have hcarrier : (m.send K plus).carrier K = true := by
      rw [carrier_iff]
      refine ⟨(K.send c plus).2, ?_, ?_⟩
      · unfold send
        rw [hc]
      · rw [K.connected_send_plus, hconnected]
    obtain ⟨hsent', hmode', hcarrier'⟩ := ih (m.send K plus) hcarrier
    refine ⟨?_, hmode'.trans hmode, hcarrier'⟩
    rw [show m.sendAll K (List.replicate (count + 1) plus) =
      (m.send K plus).sendAll K (List.replicate count plus) from rfl, hsent', hsent,
      List.replicate_succ, List.append_assoc]
    rfl

/-- A byte that breaks a run of plus signs comes behind those withheld. -/
theorem receiveOnlineByte_of_ne {m : HayesModem κ} {value : UInt8} (hvalue : value ≠ plus)
    (h : m.carrier K = true) :
    (m.receiveOnlineByte K value).sent = m.sent ++ (m.withheld ++ [value]) ∧
      (m.receiveOnlineByte K value).mode = m.mode ∧
      (m.receiveOnlineByte K value).escapePlusCount = 0 := by
  obtain ⟨hsent, hmode, hcarrier⟩ := sendAll_replicate m.escapePlusCount m h
  have hreplayed : (if 0 < m.escapePlusCount ∧ m.carrier K = true then
      m.sendAll K (List.replicate m.escapePlusCount plus) else m) =
        m.sendAll K (List.replicate m.escapePlusCount plus) := by
    by_cases hzero : m.escapePlusCount = 0
    · rw [if_neg (by omega), hzero]
      rfl
    · rw [if_pos ⟨by omega, h⟩]
  unfold receiveOnlineByte
  dsimp only
  rw [if_neg hvalue, hreplayed]
  generalize m.sendAll K (List.replicate m.escapePlusCount plus) = m' at hsent hmode hcarrier ⊢
  rw [if_pos (show carrier K { m' with escapePlusCount := 0 } = true from hcarrier)]
  obtain ⟨c, hc, -⟩ := (carrier_iff m').mp hcarrier
  unfold send
  dsimp only
  rw [hc]
  refine ⟨?_, hmode, rfl⟩
  show m'.sent ++ [value] = _
  rw [hsent, List.append_assoc]
  rfl

/-- An escape sequence does not reach over another byte. -/
theorem escape_infix_iff {count : Nat} (hcount : count < 3) {value : UInt8}
    (hvalue : value ≠ plus) (bytes : List UInt8) :
    escape <:+: List.replicate count plus ++ value :: bytes ↔ escape <:+: bytes := by
  have hne : plus ≠ value := fun h => hvalue h.symm
  have hcases : count = 0 ∨ count = 1 ∨ count = 2 := by omega
  rcases hcases with rfl | rfl | rfl <;>
    simp [escape, List.replicate, List.infix_cons_iff, List.cons_prefix_cons, hne]

theorem replicate_succ_append (count : Nat) (bytes : List UInt8) :
    List.replicate (count + 1) plus ++ bytes = List.replicate count plus ++ plus :: bytes := by
  rw [List.replicate_succ', List.append_assoc]
  rfl

/-- In command mode the guest does not talk. -/
theorem received_of_command {ops : List (Op κ)} {m : HayesModem κ} (hmode : m.mode = .command)
    (h : Guarded (apply K q) (Talking K) m ops) :
    received ops = [] ∧ (run (apply K q) m ops).mode = .command ∧
      (run (apply K q) m ops).sent = m.sent := by
  induction ops generalizing m with
  | nil => exact ⟨rfl, hmode, rfl⟩
  | cons op ops ih =>
    obtain ⟨hop, hops⟩ := h
    cases op with
    | receive value opened =>
      have honline : m.mode = .online := hop.1
      rw [hmode] at honline
      cases honline
    | poll =>
      have hpoll : (m.poll K).2.mode = m.mode ∧ (m.poll K).2.sent = m.sent := by
        unfold poll
        cases m.connection <;> exact ⟨rfl, rfl⟩
      obtain ⟨hreceived, hmode', hsent⟩ := ih (hpoll.1.trans hmode) hops
      exact ⟨hreceived, hmode', hsent.trans hpoll.2⟩
    | reset => exact hop.elim
    | thread bytes change => exact ih hmode hops

theorem not_escape_infix {bytes : List UInt8} (h : bytes.length < 3) : ¬ escape <:+: bytes := by
  intro hinfix
  have hlength : escape.length ≤ bytes.length := hinfix.length_le
  have hthree : escape.length = 3 := List.length_replicate
  omega

/-- A byte behind an account moves in front of it. -/
theorem Accounted.of_break {m m₁ m' : HayesModem κ} {value : UInt8} {bytes : List UInt8}
    (hcount : m.escapePlusCount < 3) (hvalue : value ≠ plus) (hmode : m₁.mode = m.mode)
    (hsent : m₁.sent = m.sent ++ (m.withheld ++ [value])) (h : Accounted m₁ m' bytes) :
    Accounted m m' (m.withheld ++ value :: bytes) := by
  have hinfix := escape_infix_iff hcount hvalue
  rcases h with ⟨hmode', hnone, hbytes⟩ | ⟨hmode', hfirst, front, hfront, hbytes⟩
  · refine .inl ⟨hmode'.trans hmode, ?_, ?_⟩
    · rw [withheld, hinfix]
      exact hnone
    · rw [hbytes, hsent]
      simp only [List.append_assoc, List.cons_append, List.nil_append]
  · refine .inr ⟨hmode', ?_, m.withheld ++ value :: front, ?_, ?_⟩
    · have hne : bytes ≠ [] := by
        rw [hfront]
        exact List.append_ne_nil_of_right_ne_nil _ (by decide)
      rw [List.dropLast_append_of_ne_nil (List.cons_ne_nil value bytes),
        List.dropLast_cons_of_ne_nil hne, withheld, hinfix]
      exact hfirst
    · rw [hfront, List.append_assoc, List.cons_append]
    · rw [hbytes, hsent]
      simp only [List.append_assoc, List.cons_append, List.nil_append]

/-- While the guest talks, its bytes are accounted for. -/
theorem run_accounted {ops : List (Op κ)} {m : HayesModem κ} (h : m.Settled)
    (hg : Guarded (apply K q) (Talking K) m ops) :
    Accounted m (run (apply K q) m ops) (m.withheld ++ received ops) := by
  induction ops generalizing m with
  | nil =>
    refine .inl ⟨rfl, not_escape_infix ?_, ?_⟩
    · rw [received, List.append_nil, withheld, List.length_replicate]
      exact h.lt_three
    · rw [received, List.append_nil]
      rfl
  | cons op ops ih =>
    obtain ⟨hop, hops⟩ := hg
    have hsettled := apply_settled (K := K) (q := q) m op h
    cases op with
    | receive value opened =>
      obtain ⟨honline, hcarrier⟩ := hop
      have hstep : apply K q m (.receive value opened) = m.receiveOnlineByte K value := by
        show m.receiveByte K q opened value = _
        unfold receiveByte
        rw [if_pos honline]
      rw [hstep] at hops hsettled
      show Accounted m (run (apply K q) (apply K q m (.receive value opened)) ops) _
      rw [hstep, received]
      by_cases hvalue : value = plus
      · rw [hvalue] at hops hsettled ⊢
        by_cases hthree : m.escapePlusCount + 1 = 3
        · -- the third plus sign: the guest does not talk any more
          have hescape : m.receiveOnlineByte K plus =
              result { m with mode := .command, escapePlusCount := 0 } "OK" := by
            unfold receiveOnlineByte
            dsimp only
            rw [if_pos rfl, if_pos hthree]
          rw [hescape] at hops ⊢
          obtain ⟨hreceived, hmode, hsent⟩ := received_of_command (result_mode _ _) hops
          have htwo : m.withheld ++ plus :: received ops = escape := by
            rw [hreceived, withheld, show m.escapePlusCount = 2 by omega]
            rfl
          rw [htwo]
          refine .inr ⟨hmode, not_escape_infix (by decide), [], rfl, ?_⟩
          rw [hsent, result_sent, List.append_nil]
        · have hplus : m.receiveOnlineByte K plus =
              { m with escapePlusCount := m.escapePlusCount + 1 } := by
            unfold receiveOnlineByte
            dsimp only
            rw [if_pos rfl, if_neg hthree]
          rw [hplus] at hops hsettled ⊢
          rw [withheld, ← replicate_succ_append]
          exact ih hsettled hops
      · obtain ⟨hsent, hmode, hcount⟩ := receiveOnlineByte_of_ne hvalue hcarrier
        have hrest := ih hsettled hops
        rw [show (m.receiveOnlineByte K value).withheld = [] by rw [withheld, hcount]; rfl,
          List.nil_append] at hrest
        exact hrest.of_break h.lt_three hvalue hmode hsent
    | poll =>
      have hpoll : (m.poll K).2.mode = m.mode ∧ (m.poll K).2.sent = m.sent ∧
          (m.poll K).2.withheld = m.withheld := by
        unfold poll
        cases m.connection <;> exact ⟨rfl, rfl, rfl⟩
      have hrest := ih hsettled hops
      unfold Accounted at hrest ⊢
      rw [show apply K q m .poll = (m.poll K).2 from rfl, hpoll.1, hpoll.2.1, hpoll.2.2] at hrest
      exact hrest
    | reset => exact hop.elim
    | thread bytes change => exact ih hsettled hops

/-- **The escape sequence costs no data.**  In every state of a run less than an escape
    sequence is withheld, and nothing in command mode; and whatever the guest then sends
    while the modem is online and its connection connected is accounted for. -/
theorem escape_costs_no_data (K : Connection κ) (q : Qt) (configuration : SerialDeviceConfiguration)
    (ops : List (Op κ)) :
    let m := run (apply K q) (create configuration) ops
    m.Settled ∧ ∀ more, Guarded (apply K q) (Talking K) m more →
      Accounted m (run (apply K q) m more) (m.withheld ++ received more) := by
  intro m
  have h : m.Settled := run_settled configuration ops
  exact ⟨h, fun more hg => run_accounted h hg⟩

/-- A call to the modem's own SLIP number, `A++B` and an escape sequence. -/
example :
    let K : Connection Unit := ⟨fun c => ([], c), fun c _ => ([], c), fun _ => true, fun _ => rfl⟩
    let q : Qt := ⟨id, id, fun _ => none⟩
    let call : List UInt8 := [0x44, 0x31, 0x30, 0x30, 0x30, 0x0d]
    let guest : List UInt8 := [0x41, 0x2b, 0x2b, 0x42, 0x2b, 0x2b, 0x2b]
    let m := run (apply K q) (create {})
      ((call ++ guest).map fun value => .receive value fun _ => ())
    m.sent = [0x41, 0x2b, 0x2b, 0x42] ∧ m.mode = .command := by
  decide +kernel

end HayesModem

end CuteMac.Modem

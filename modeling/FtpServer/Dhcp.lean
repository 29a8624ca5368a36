import FtpServer.Library.Interleaving

/-! The DHCP client on the network interface (`dhcp_start` and `dhcp_stop` of lwIP) and
`lwip_dhcp_task`, which polls it. -/

namespace FtpServer
open Interaction

section Client

inductive ErrT where
  | ok | mem
  deriving DecidableEq, Repr

/-- `struct dhcp`: whether it has its UDP pcb, and the tries of the current request. -/
structure Dhcp where
  pcb : Bool
  tries : UInt8
  deriving DecidableEq, Repr

structure Netif where
  ipAddr : UInt32
  netmask : UInt32
  gw : UInt32
  flags : UInt8
  mtu : UInt16
  dhcp : Option Dhcp
  deriving DecidableEq, Repr

/-- What `mem_malloc`, `udp_new` and the `pbuf_alloc` of `dhcp_create_request` find free. -/
structure Memory where
  client : Bool
  pcb : Bool
  request : Bool
  deriving DecidableEq, Repr

def netifFlagDhcp : UInt8 := 0x08
def dhcpMaxMsgLenMinRequired : UInt16 := 576

/-- `dhcp_discover` on a cleared client, where `dhcp_set_state` leaves no tries. -/
def dhcpDiscover (memory : Memory) (dhcp : Dhcp) : ErrT × Dhcp :=
  (if memory.request then .ok else .mem, { dhcp with tries := dhcp.tries + 1 })

def dhcpStop (netif : Netif) : Netif :=
  { netif with flags := netif.flags &&& ~~~netifFlagDhcp, dhcp := none }

/-- `dhcp_start` from where the client is attached: cleared, given a pcb, sent out. -/
def dhcpNegotiate (memory : Memory) (netif : Netif) : ErrT × Netif :=
  if memory.pcb = false then (.mem, { netif with dhcp := none })
  else
    let (result, dhcp) := dhcpDiscover memory { pcb := true, tries := 0 }
    let netif := { netif with dhcp := some dhcp }
    if result ≠ .ok then (.mem, dhcpStop netif)
    else (result, { netif with flags := netif.flags ||| netifFlagDhcp })

def dhcpStart (memory : Memory) (netif : Netif) : ErrT × Netif :=
  let netif := { netif with flags := netif.flags &&& ~~~netifFlagDhcp }
  if netif.mtu < dhcpMaxMsgLenMinRequired then (.mem, netif)
  else if netif.dhcp = none ∧ memory.client = false then (.mem, netif)
  else dhcpNegotiate memory netif

theorem dhcpNegotiate_attaches (memory : Memory) (netif : Netif) :
    (dhcpNegotiate memory netif).2.dhcp.isSome ↔ (dhcpNegotiate memory netif).1 = .ok := by
  obtain ⟨client, pcb, request⟩ := memory
  cases pcb <;> cases request <;> simp [dhcpNegotiate, dhcpDiscover, dhcpStop]

theorem dhcpStart_attaches {netif : Netif} (hnone : netif.dhcp = none) (memory : Memory) :
    (dhcpStart memory netif).2.dhcp.isSome ↔ (dhcpStart memory netif).1 = .ok := by
  unfold dhcpStart
  simp only
  split
  · simp [hnone]
  · split
    · simp [hnone]
    · exact dhcpNegotiate_attaches memory _

theorem dhcpStart_ok_iff (netif : Netif) (memory : Memory) :
    (dhcpStart memory { netif with dhcp := none }).1 = .ok ↔
      dhcpMaxMsgLenMinRequired ≤ netif.mtu ∧ memory.client = true ∧ memory.pcb = true ∧
        memory.request = true := by
  obtain ⟨client, pcb, request⟩ := memory
  unfold dhcpStart
  simp only
  split
  · rename_i hsmall
    simp [UInt16.not_le.mpr hsmall]
  · rename_i hmtu
    have hlarge : dhcpMaxMsgLenMinRequired ≤ netif.mtu := UInt16.not_lt.mp hmtu
    cases client <;> cases pcb <;> cases request <;>
      simp [dhcpNegotiate, dhcpDiscover, dhcpStop, hlarge]

end Client

section Task

/-- `IP4_ADDR`, in network byte order. -/
def ip4Addr (a b c d : UInt8) : UInt32 :=
  (d.toUInt32 <<< 24) ||| (c.toUInt32 <<< 16) ||| (b.toUInt32 <<< 8) ||| a.toUInt32

def staticAddr : UInt32 := ip4Addr 10 58 6 191
def staticNetmask : UInt32 := ip4Addr 255 255 255 0
def staticGw : UInt32 := ip4Addr 10 58 6 1

def maxDhcpTries : UInt8 := 5

/-- The variables that the task shares, and what it has done: the addresses at which it called
`dhcp_stop`, and whether it has deleted itself. -/
structure NetState where
  netif : Netif
  myIpaddr : UInt32
  memory : Memory
  stops : List UInt32
  deleted : Bool

inductive NetCall where
  | dhcpStart
  | readIpAddr
  | readTries
  | dhcpStop
  | setMyIpaddr (addr : UInt32)
  | netifSetAddr (netmask gw : UInt32)
  | copyIpAddr
  | vTaskDelete
  | vTaskDelay (ticks : Nat)

/-- `xnetif.dhcp->tries` cannot be read through NULL. -/
@[reducible] def NetCall.Answer : NetCall → Type
  | dhcpStart => ErrT
  | readIpAddr => UInt32
  | readTries => Option UInt8
  | dhcpStop | setMyIpaddr _ | netifSetAddr _ _ | copyIpAddr | vTaskDelete | vTaskDelay _ => Unit

def netifSetAddr (netif : Netif) (ipaddr netmask gw : UInt32) : Netif :=
  { netif with ipAddr := ipaddr, netmask := netmask, gw := gw }

def netDo (w : NetState) : (c : NetCall) → c.Answer × NetState
  | .dhcpStart =>
    ((FtpServer.dhcpStart w.memory w.netif).1,
      { w with netif := (FtpServer.dhcpStart w.memory w.netif).2 })
  | .readIpAddr => (w.netif.ipAddr, w)
  | .readTries => (w.netif.dhcp.map Dhcp.tries, w)
  | .dhcpStop =>
    ((), { w with netif := FtpServer.dhcpStop w.netif, stops := w.stops ++ [w.netif.ipAddr] })
  | .setMyIpaddr addr => ((), { w with myIpaddr := addr })
  | .netifSetAddr netmask gw =>
    ((), { w with netif := FtpServer.netifSetAddr w.netif w.myIpaddr netmask gw })
  | .copyIpAddr => ((), { w with myIpaddr := w.netif.ipAddr })
  | .vTaskDelete => ((), { w with deleted := true })
  | .vTaskDelay _ => ((), w)

inductive NetFault where
  | nullPointer
  deriving DecidableEq, Repr

abbrev NetTask := Prog NetCall NetCall.Answer NetFault

inductive DhcpState where
  | start | waitAddress | addressAssigned | timeout
  deriving DecidableEq, Repr

def assignedBranch : NetTask Unit := do
  call NetCall.dhcpStop
  call NetCall.copyIpAddr
  call NetCall.vTaskDelete

def timeoutBranch : NetTask Unit := do
  call NetCall.dhcpStop
  call (NetCall.setMyIpaddr staticAddr)
  call (NetCall.netifSetAddr staticNetmask staticGw)
  call NetCall.copyIpAddr
  call NetCall.vTaskDelete

/-- The branch without an address; `next` is what follows the `switch`. -/
def waitBranch (next : NetTask Unit) : NetTask Unit := do
  let tries ← call NetCall.readTries
  match tries with
  | none => .fault .nullPointer
  | some tries => if maxDhcpTries < tries then timeoutBranch else next

/-- The rounds of `lwip_dhcp_task`; `vTaskDelete` does not return. -/
def dhcpRounds : Nat → DhcpState → NetTask Unit
  | 0, _ => .stuck
  | fuel + 1, .start => do
    let _ ← call NetCall.dhcpStart
    call (NetCall.vTaskDelay 250)
    dhcpRounds fuel .waitAddress
  | fuel + 1, .waitAddress => do
    let ipAddress ← call NetCall.readIpAddr
    if ipAddress ≠ 0 then assignedBranch
    else waitBranch do
      call (NetCall.vTaskDelay 250)
      dhcpRounds fuel .waitAddress
  | fuel + 1, state => do
    call (NetCall.vTaskDelay 250)
    dhcpRounds fuel state

def lwipDhcpTask (fuel : Nat) : NetTask Unit := dhcpRounds fuel .start

end Task

end FtpServer

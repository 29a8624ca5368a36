import FtpServer.Dhcp

/-! `lwip_dhcp_task` beside whatever else changes the interface, step by step: the address it
publishes, and what becomes of it when DHCP could not be started. -/

namespace FtpServer
open Interaction Transition Relation

section Steps

def netStep (w : NetState) (e : Event NetCall NetCall.Answer) (w' : NetState) : Prop :=
  netDo w e.call = (e.answer, w')

def NetState.changed (w : NetState) (ip netmask gw : UInt32) (tries : UInt8) : NetState :=
  { w with netif := { w.netif with
      ipAddr := ip
      netmask := netmask
      gw := gw
      dhcp := w.netif.dhcp.map fun dhcp => { dhcp with tries := tries } } }

def otherStep (w w' : NetState) : Prop :=
  ∃ ip netmask gw tries, w' = w.changed ip netmask gw tries

/-- The DHCP client changes the interface, as long as it is attached. -/
def clientStep (w w' : NetState) : Prop := w.netif.dhcp.isSome ∧ otherStep w w'

/-- Before the task; `netif_add` leaves no client. -/
def booted (netif : Netif) (memory : Memory) (myIpaddr : UInt32) : NetState where
  netif := { netif with dhcp := none }
  myIpaddr := myIpaddr
  memory := memory
  stops := []
  deleted := false

structure PollingState (w : NetState) : Prop where
  client : w.netif.dhcp.isSome
  stops : w.stops = []
  deleted : w.deleted = false

theorem PollingState.others {w u : NetState} (h : PollingState w)
    (hu : ReflTransGen otherStep w u) : PollingState u := by
  induction hu with
  | refl => exact h
  | tail _ hstep ih =>
    obtain ⟨ip, netmask, gw, tries, rfl⟩ := hstep
    exact ⟨by simpa [NetState.changed] using ih.client, ih.stops, ih.deleted⟩

structure FreshState (netif : Netif) (memory : Memory) (w : NetState) : Prop where
  client : w.netif.dhcp = none
  mtu : w.netif.mtu = netif.mtu
  memory : w.memory = memory
  stops : w.stops = []
  deleted : w.deleted = false

theorem FreshState.others {netif : Netif} {memory : Memory} {w u : NetState}
    (h : FreshState netif memory w) (hu : ReflTransGen otherStep w u) :
    FreshState netif memory u := by
  induction hu with
  | refl => exact h
  | tail _ hstep ih =>
    obtain ⟨ip, netmask, gw, tries, rfl⟩ := hstep
    exact ⟨by simp [NetState.changed, ih.client], ih.mtu, ih.memory, ih.stops, ih.deleted⟩

theorem fresh_booted (netif : Netif) (memory : Memory) (myIpaddr : UInt32) :
    FreshState netif memory (booted netif memory myIpaddr) := ⟨rfl, rfl, rfl, rfl, rfl⟩

theorem FreshState.attaches {netif : Netif} {memory : Memory} {w : NetState}
    (h : FreshState netif memory w) : (netDo w .dhcpStart).2.netif.dhcp.isSome ↔
      dhcpMaxMsgLenMinRequired ≤ netif.mtu ∧ memory.client = true ∧ memory.pcb = true ∧
        memory.request = true := by
  have hnone : w.netif = { w.netif with dhcp := none } := by rw [← h.client]
  rw [← h.mtu, ← h.memory, ← dhcpStart_ok_iff, ← hnone]
  exact dhcpStart_attaches h.client w.memory

theorem FreshState.start {netif : Netif} {memory : Memory} {w : NetState}
    (h : FreshState netif memory w) (hclient : (netDo w .dhcpStart).2.netif.dhcp.isSome) :
    PollingState (netDo w .dhcpStart).2 := ⟨hclient, h.stops, h.deleted⟩

theorem clientStep.toOther {w u : NetState} (h : ReflTransGen clientStep w u) :
    ReflTransGen otherStep w u := h.lift id fun _ _ hstep => hstep.2

theorem client_changes {w : NetState} (ip netmask gw : UInt32) (tries : UInt8)
    (h : w.netif.dhcp.isSome) : clientStep w (w.changed ip netmask gw tries) :=
  ⟨h, ip, netmask, gw, tries, rfl⟩

theorem clientStep.idle {w u : NetState} (h : ReflTransGen clientStep w u)
    (hnone : w.netif.dhcp = none) : u = w := by
  induction h with
  | refl => rfl
  | tail _ hstep ih =>
    subst ih
    simp [clientStep, hnone] at hstep

variable {other : NetState → NetState → Prop} {inv : NetTask Unit → NetState → Prop}

theorem keeps_do (q : NetCall) (f : q.Answer → NetTask Unit) (w : NetState) :
    Keeps netStep other inv (call q >>= f) w ↔ ∀ u, ReflTransGen other w u →
      inv (call q >>= f) u ∧ Keeps netStep other inv (f (netDo u q).1) (netDo u q).2 := by
  rw [keeps_call]
  refine forall₂_congr fun u _ => and_congr_right fun _ => ?_
  constructor
  · intro h
    exact h _ _ rfl
  · intro h a v hstep
    have hdo : netDo u q = (a, v) := hstep
    rwa [hdo] at h

end Steps

section Rounds

def Running (w : NetState) : Prop := w.stops = [] ∧ w.deleted = false

theorem PollingState.running {w : NetState} (h : PollingState w) : Running w :=
  ⟨h.stops, h.deleted⟩

theorem FreshState.running {netif : Netif} {memory : Memory} {w : NetState}
    (h : FreshState netif memory w) : Running w := ⟨h.stops, h.deleted⟩

/-- What the rounds of the task keep: it holds at every call before DHCP is stopped, and both
branches that end the task keep it. -/
structure RoundsKeep (other : NetState → NetState → Prop)
    (inv : NetTask Unit → NetState → Prop) : Prop where
  others : ∀ w u, ReflTransGen other w u → ReflTransGen otherStep w u
  calls : ∀ q f w, Running w → inv (call q >>= f) w
  stuck : ∀ w, Running w → inv .stuck w
  assigned : ∀ w, PollingState w → Keeps netStep other inv assignedBranch w
  timeout : ∀ w, PollingState w → Keeps netStep other inv timeoutBranch w

variable {other : NetState → NetState → Prop} {inv : NetTask Unit → NetState → Prop}

theorem RoundsKeep.rounds (hkeep : RoundsKeep other inv) (fuel : Nat) {w : NetState}
    (h : PollingState w) : Keeps netStep other inv (dhcpRounds fuel .waitAddress) w := by
  induction fuel generalizing w with
  | zero => exact fun u hu => hkeep.stuck u (h.others (hkeep.others w u hu)).running
  | succ fuel ih =>
    refine (keeps_do .readIpAddr _ w).mpr fun u hu => ?_
    have hread := h.others (hkeep.others w u hu)
    refine ⟨hkeep.calls _ _ u hread.running, ?_⟩
    by_cases haddr : u.netif.ipAddr = 0
    · simp only [netDo, haddr, ne_eq, not_true_eq_false, if_false]
      refine (keeps_do .readTries _ u).mpr fun v hv => ?_
      have htries := hread.others (hkeep.others u v hv)
      refine ⟨hkeep.calls _ _ v htries.running, ?_⟩
      obtain ⟨dhcp, hdhcp⟩ := Option.isSome_iff_exists.mp htries.client
      simp only [netDo, hdhcp, Option.map_some]
      split
      · exact hkeep.timeout v htries
      · refine (keeps_do (.vTaskDelay 250) _ v).mpr fun x hx => ?_
        have hdelay := htries.others (hkeep.others v x hx)
        exact ⟨hkeep.calls _ _ x hdelay.running, ih hdelay⟩
    · simpa only [netDo, ne_eq, haddr, not_false_eq_true, if_true] using hkeep.assigned u hread

theorem RoundsKeep.task (hkeep : RoundsKeep other inv) {netif : Netif} {memory : Memory}
    (myIpaddr : UInt32) (hstarted : dhcpMaxMsgLenMinRequired ≤ netif.mtu ∧
      memory.client = true ∧ memory.pcb = true ∧ memory.request = true) (fuel : Nat) :
    Keeps netStep other inv (lwipDhcpTask fuel) (booted netif memory myIpaddr) := by
  have hbooted := fresh_booted netif memory myIpaddr
  cases fuel with
  | zero => exact fun u hu => hkeep.stuck u (hbooted.others (hkeep.others _ u hu)).running
  | succ fuel =>
    refine (keeps_do .dhcpStart _ _).mpr fun u hu => ?_
    have hfresh := hbooted.others (hkeep.others _ u hu)
    have hpolling := hfresh.start (hfresh.attaches.mpr hstarted)
    refine ⟨hkeep.calls _ _ u hfresh.running, ?_⟩
    refine (keeps_do (.vTaskDelay 250) _ _).mpr fun v hv => ?_
    have hdelay := hpolling.others (hkeep.others _ v hv)
    exact ⟨hkeep.calls _ _ v hdelay.running, hkeep.rounds fuel hdelay⟩

end Rounds

section Publishing

structure Published (w : NetState) : Prop where
  stopped : w.stops.length ≤ 1
  deleted : w.deleted = true → ∃ addr, w.stops = [addr] ∧ w.myIpaddr = w.netif.ipAddr ∧
    (w.netif.ipAddr = addr ∨ w.netif.ipAddr = staticAddr)

theorem Running.published {w : NetState} (h : Running w) : Published w :=
  ⟨by simp [h.1], by simp [h.2]⟩

abbrev KeepsPublished (p : NetTask Unit) (w : NetState) : Prop :=
  Keeps netStep clientStep (fun _ w => Published w) p w

theorem keepsPublished_alone {q : NetCall} {f : q.Answer → NetTask Unit} {w : NetState}
    (hnone : w.netif.dhcp = none) (hnow : Published w)
    (hnext : KeepsPublished (f (netDo w q).1) (netDo w q).2) :
    KeepsPublished (call q >>= f) w := by
  refine (keeps_do q f w).mpr fun u hu => ?_
  obtain rfl := clientStep.idle hu hnone
  exact ⟨hnow, hnext⟩

theorem keepsPublished_delete {w : NetState} (hnone : w.netif.dhcp = none) (hnow : Published w)
    (hend : Published { w with deleted := true }) :
    KeepsPublished (call NetCall.vTaskDelete) w := by
  change KeepsPublished (call NetCall.vTaskDelete >>= fun _ => pure ()) w
  refine keepsPublished_alone hnone hnow fun u hu => ?_
  obtain rfl := clientStep.idle hu hnone
  exact hend

structure StoppedState (addr : UInt32) (w : NetState) : Prop where
  client : w.netif.dhcp = none
  stops : w.stops = [addr]
  deleted : w.deleted = false

theorem StoppedState.published {addr : UInt32} {w : NetState} (h : StoppedState addr w) :
    Published w :=
  ⟨by simp [h.stops], by simp [h.deleted]⟩

theorem PollingState.stop {w : NetState} (h : PollingState w) :
    StoppedState w.netif.ipAddr (netDo w .dhcpStop).2 :=
  ⟨rfl, by simp [netDo, h.stops], h.deleted⟩

theorem keepsPublished_copy {addr : UInt32} {w : NetState} (h : StoppedState addr w)
    (haddr : w.netif.ipAddr = addr ∨ w.netif.ipAddr = staticAddr) :
    KeepsPublished (do
      call NetCall.copyIpAddr
      call NetCall.vTaskDelete) w := by
  have hcopied : StoppedState addr (netDo w .copyIpAddr).2 := ⟨h.client, h.stops, h.deleted⟩
  refine keepsPublished_alone h.client h.published ?_
  refine keepsPublished_delete hcopied.client hcopied.published ?_
  exact ⟨hcopied.published.stopped, fun _ => ⟨addr, h.stops, rfl, haddr⟩⟩

theorem keepsPublished_assigned {w : NetState} (h : PollingState w) :
    KeepsPublished assignedBranch w := by
  refine (keeps_do .dhcpStop _ w).mpr fun u hu => ?_
  have hpolling := h.others (clientStep.toOther hu)
  exact ⟨hpolling.running.published, keepsPublished_copy hpolling.stop (.inl rfl)⟩

theorem keepsPublished_timeout {w : NetState} (h : PollingState w) :
    KeepsPublished timeoutBranch w := by
  refine (keeps_do .dhcpStop _ w).mpr fun u hu => ?_
  have hpolling := h.others (clientStep.toOther hu)
  have hstopped := hpolling.stop
  refine ⟨hpolling.running.published, keepsPublished_alone hstopped.client hstopped.published ?_⟩
  have hset : StoppedState u.netif.ipAddr
      (netDo (netDo u .dhcpStop).2 (.setMyIpaddr staticAddr)).2 :=
    ⟨hstopped.client, hstopped.stops, hstopped.deleted⟩
  refine keepsPublished_alone hset.client hset.published ?_
  have hconfigured : StoppedState u.netif.ipAddr (netDo (netDo (netDo u .dhcpStop).2
      (.setMyIpaddr staticAddr)).2 (.netifSetAddr staticNetmask staticGw)).2 :=
    ⟨rfl, hset.stops, hset.deleted⟩
  exact keepsPublished_copy hconfigured (.inr rfl)

theorem roundsKeep_published : RoundsKeep clientStep (fun _ w => Published w) where
  others := fun _ _ hu => clientStep.toOther hu
  calls := fun _ _ _ hrunning => hrunning.published
  stuck := fun _ hrunning => hrunning.published
  assigned := fun _ hpolling => keepsPublished_assigned hpolling
  timeout := fun _ hpolling => keepsPublished_timeout hpolling

/-- Whatever the DHCP client does between the steps of the task, it calls `dhcp_stop` once, and
deletes itself when `my_ipaddr` is the address of the interface: the one it had when DHCP was
stopped, or the static one. -/
theorem dhcp_publishes_address {netif : Netif} {memory : Memory} {myIpaddr : UInt32} {fuel : Nat}
    {labels : List (Option (Event NetCall NetCall.Answer))} {p : NetTask Unit} {w : NetState}
    (hstarted : (dhcpStart memory { netif with dhcp := none }).1 = .ok)
    (hrun : Follows (Interleaved netStep clientStep)
      (lwipDhcpTask fuel, booted netif memory myIpaddr) labels (p, w)) :
    Published w := by
  have hneeds := (dhcpStart_ok_iff netif memory).mp hstarted
  exact (roundsKeep_published.task myIpaddr hneeds fuel).follows hrun

def ethernet : Netif where
  ipAddr := 0
  netmask := 0
  gw := 0
  flags := 0
  mtu := 1500
  dhcp := none

def enoughMemory : Memory := ⟨true, true, true⟩

/-- A lease that comes after the address was read, in the round that gives up. -/
def lateLease : List (Option (Event NetCall NetCall.Answer)) :=
  [some ⟨.dhcpStart, ErrT.ok⟩, some ⟨.vTaskDelay 250, ()⟩, none, some ⟨.readIpAddr, (0 : UInt32)⟩,
    none, some ⟨.readTries, some (6 : UInt8)⟩, some ⟨.dhcpStop, ()⟩,
    some ⟨.setMyIpaddr staticAddr, ()⟩, some ⟨.netifSetAddr staticNetmask staticGw, ()⟩,
    some ⟨.copyIpAddr, ()⟩, some ⟨.vTaskDelete, ()⟩]

def afterLateLease : NetState where
  netif := { ethernet with ipAddr := staticAddr, netmask := staticNetmask, gw := staticGw }
  myIpaddr := staticAddr
  memory := enoughMemory
  stops := [0xc0a80005]
  deleted := true

theorem follows_lateLease : Follows (Interleaved netStep clientStep)
    (lwipDhcpTask 2, booted ethernet enoughMemory 0) lateLease (pure (), afterLateLease) := by
  refine follows_ask rfl (follows_ask rfl (follows_other (client_changes 0 0 0 6 rfl) ?_))
  refine follows_ask rfl (follows_other (client_changes 0xc0a80005 0 0 6 rfl) ?_)
  exact follows_ask rfl (follows_ask rfl (follows_ask rfl (follows_ask rfl (follows_ask rfl
    (follows_ask rfl rfl)))))

theorem dhcp_publishes_address_late : Published afterLateLease :=
  dhcp_publishes_address (by decide) follows_lateLease

end Publishing

end FtpServer

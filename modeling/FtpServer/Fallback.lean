import FtpServer.Polling

/-! `lwip_dhcp_task` does not look at the result of `dhcp_start`. Where that fails there is no
client, whose tries the task is going to read. -/

namespace FtpServer
open Interaction Transition Relation

section Survival

def SetsStatic (labels : List (Option (Event NetCall NetCall.Answer))) : Prop :=
  some ⟨.setMyIpaddr staticAddr, ()⟩ ∈ labels ∧
    some ⟨.netifSetAddr staticNetmask staticGw, ()⟩ ∈ labels

/-- The task never reads through NULL; and if DHCP was not started it ends, after a bounded
number of steps, with the static address. -/
structure Survives (netif : Netif) (memory : Memory) (myIpaddr : UInt32) : Prop where
  reads : ∀ fuel labels p w, Follows (Interleaved netStep otherStep)
    (lwipDhcpTask fuel, booted netif memory myIpaddr) labels (p, w) → p ≠ .fault .nullPointer
  falls_back : (dhcpStart memory { netif with dhcp := none }).1 ≠ .ok →
    ∃ bound, ∀ fuel, bound ≤ fuel → ∀ labels p w, Follows (Interleaved netStep otherStep)
      (lwipDhcpTask fuel, booted netif memory myIpaddr) labels (p, w) →
      labels.reduceOption.length ≤ bound ∧ p ≠ .stuck ∧ (p = pure () → SetsStatic labels)

end Survival

section Reading

abbrev KeepsReading (p : NetTask Unit) (w : NetState) : Prop :=
  Keeps netStep otherStep (fun p _ => p ≠ .fault .nullPointer) p w

theorem call_ne_fault (q : NetCall) (f : q.Answer → NetTask Unit) (e : NetFault) :
    (call q >>= f) ≠ .fault e := by
  intro hsame
  cases hsame

theorem keepsReading_any {q : NetCall} {f : q.Answer → NetTask Unit}
    (h : ∀ a w, KeepsReading (f a) w) (w : NetState) : KeepsReading (call q >>= f) w :=
  (keeps_do q f w).mpr fun _ _ => ⟨call_ne_fault q f _, h _ _⟩

theorem keepsReading_delete (w : NetState) : KeepsReading (call NetCall.vTaskDelete) w := by
  change KeepsReading (call NetCall.vTaskDelete >>= fun _ => pure ()) w
  refine keepsReading_any (fun _ v u hu hsame => ?_) w
  cases hsame

theorem keepsReading_assigned (w : NetState) : KeepsReading assignedBranch w := by
  refine keepsReading_any (fun _ => ?_) w
  exact keepsReading_any fun _ => keepsReading_delete

theorem keepsReading_timeout (w : NetState) : KeepsReading timeoutBranch w := by
  refine keepsReading_any (fun _ => keepsReading_any fun _ => ?_) w
  exact keepsReading_any fun _ => keepsReading_any fun _ => keepsReading_delete

theorem roundsKeep_reading : RoundsKeep otherStep (fun p _ => p ≠ .fault .nullPointer) where
  others := fun _ _ hu => hu
  calls := fun q f _ _ => call_ne_fault q f .nullPointer
  stuck := by
    intro w hrunning hsame
    cases hsame
  assigned := fun w _ => keepsReading_assigned w
  timeout := fun w _ => keepsReading_timeout w

theorem follows_failed {netif : Netif} {memory : Memory} (myIpaddr : UInt32)
    (hfailed : ¬(netDo (booted netif memory myIpaddr) .dhcpStart).2.netif.dhcp.isSome) :
    ∃ labels w, Follows (Interleaved netStep otherStep)
      (lwipDhcpTask 2, booted netif memory myIpaddr) labels (.fault .nullPointer, w) := by
  generalize hstart : netDo (booted netif memory myIpaddr) .dhcpStart = started at hfailed
  obtain ⟨rc, w⟩ := started
  have hnone : w.netif.dhcp = none := by simpa using hfailed
  have htries : netStep (w.changed 0 0 0 0) ⟨.readTries, none⟩ (w.changed 0 0 0 0) := by
    simp [netStep, netDo, NetState.changed, hnone]
  have hread (next : NetTask Unit) : Follows (Interleaved netStep otherStep)
      (waitBranch next, w.changed 0 0 0 0) [some ⟨.readTries, none⟩]
      (.fault .nullPointer, w.changed 0 0 0 0) := follows_ask htries rfl
  have hround : Follows (Interleaved netStep otherStep) (dhcpRounds 1 .waitAddress, w)
      [none, some ⟨.readIpAddr, (0 : UInt32)⟩, some ⟨.readTries, none⟩]
      (.fault .nullPointer, w.changed 0 0 0 0) :=
    follows_other ⟨0, 0, 0, 0, rfl⟩ (follows_ask rfl (hread _))
  exact ⟨_, _, follows_ask hstart (follows_ask rfl hround)⟩

/-- The task survives a start of DHCP exactly when that succeeds: the MTU is large enough, and
there is memory for the client, its pcb and its first message. -/
theorem dhcp_start_survives_iff (netif : Netif) (memory : Memory) (myIpaddr : UInt32) :
    Survives netif memory myIpaddr ↔
      dhcpMaxMsgLenMinRequired ≤ netif.mtu ∧ memory.client = true ∧ memory.pcb = true ∧
        memory.request = true := by
  have hattaches := (fresh_booted netif memory myIpaddr).attaches
  constructor
  · intro h
    by_contra hcond
    obtain ⟨labels, w, hrun⟩ := follows_failed myIpaddr (hcond ∘ hattaches.mp)
    exact h.reads 2 labels _ w hrun rfl
  · intro hstarted
    refine ⟨fun fuel labels p w hrun => ?_, fun hfailed => ?_⟩
    · exact (roundsKeep_reading.task myIpaddr hstarted fuel).follows hrun
    · exact absurd ((dhcpStart_ok_iff netif memory).mpr hstarted) hfailed

def noMemory : Memory := ⟨false, false, false⟩

theorem dhcp_start_without_memory :
    ¬∀ (netif : Netif) (memory : Memory) (myIpaddr : UInt32), Survives netif memory myIpaddr := by
  intro h
  obtain ⟨labels, w, hrun⟩ := @follows_failed ethernet noMemory 0 (by decide)
  exact (h ethernet noMemory 0).reads 2 labels _ w hrun rfl

end Reading

end FtpServer

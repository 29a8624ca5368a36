import FtpServer.Diskio

/-! Which failures of the SD card reach FatFs. The driver reports them in the result of the
call that starts a transfer, in the result of the wait for its end and in the card status;
`disk_read` and `disk_write` pass on the second, drop the first and wait for the third to
go away. -/

namespace FtpServer
open Interaction CString Transition

section Driver

def sdCmdRspTimeout : SdError := .failed 3
def sdDataTimeout : SdError := .failed 4

def sdioFlagTxact : UInt32 := 0x1000
def sdioFlagRxact : UInt32 := 0x2000

def sdDatatimeout : Nat := 0xFFFFFFFF

/-- What the end of a transfer depends on: the values read from `SDIO->STA`, whether the
transfer has to be stopped and what `SD_StopTransfer` returns, and `TransferError` as the
interrupts leave it. -/
structure SdTransfer where
  sta : Nat → UInt32
  stopCondition : UInt32
  stopTransfer : SdError
  transferError : SdError

/-- `while ((SDIO->STA & flag) && (timeout > 0)) timeout--;` -/
def whileActive (flag : UInt32) (sta : Nat → UInt32) : Nat → Nat → Nat
  | _, 0 => 0
  | k, timeout + 1 =>
    if sta k &&& flag ≠ 0 then whileActive flag sta (k + 1) timeout else timeout + 1

/-- The loop that comes first, on the flags the interrupts set, has no part in the result: its
`timeout` is started again. -/
def sdWaitOperation (flag : UInt32) (transfer : SdTransfer) : SdError :=
  let timeout := whileActive flag transfer.sta 0 sdDatatimeout
  let errorstatus := if transfer.stopCondition = 1 then transfer.stopTransfer else .ok
  let errorstatus := if timeout = 0 ∧ errorstatus = .ok then sdDataTimeout else errorstatus
  if transfer.transferError ≠ .ok then transfer.transferError else errorstatus

def sdWaitReadOperation : SdTransfer → SdError := sdWaitOperation sdioFlagRxact
def sdWaitWriteOperation : SdTransfer → SdError := sdWaitOperation sdioFlagTxact

structure SdProbe where
  present : Bool
  sendStatus : SdError
  resp1 : UInt32

def sdCardTransfer : UInt32 := 0x04
def sdCardError : UInt32 := 0xFF

def sdGetState (probe : SdProbe) : UInt32 :=
  if probe.present = true then
    if probe.sendStatus ≠ .ok then sdCardError else (probe.resp1 >>> 9) &&& 0x0F
  else sdCardError

def sdGetStatus (probe : SdProbe) : SdTransferState :=
  let cardstate := sdGetState probe
  if cardstate = sdCardTransfer then .ok
  else if cardstate = sdCardError then .error
  else .busy

/-- A wait succeeds when the line falls silent, the card takes the stop command and no
interrupt has reported an error. Nothing here tells whether a transfer was started. -/
theorem sdWaitOperation_eq_ok (flag : UInt32) (transfer : SdTransfer) :
    sdWaitOperation flag transfer = .ok ↔
      whileActive flag transfer.sta 0 sdDatatimeout ≠ 0 ∧
      (transfer.stopCondition = 1 → transfer.stopTransfer = .ok) ∧
      transfer.transferError = .ok := by
  unfold sdWaitOperation
  by_cases herror : transfer.transferError = .ok
  · by_cases hstop : transfer.stopCondition = 1
    · by_cases hok : transfer.stopTransfer = .ok <;> simp [herror, hstop, hok, sdDataTimeout]
    · simp [herror, hstop, sdDataTimeout]
  · simp [herror]

theorem whileActive_idle {flag : UInt32} {sta : Nat → UInt32} (h : sta 0 &&& flag = 0) :
    whileActive flag sta 0 sdDatatimeout = sdDatatimeout := by
  unfold whileActive sdDatatimeout
  simp [h]

/-- The four bits of the card's own state never spell `SD_CARD_ERROR`: the status is an error
when the card is not there or does not answer. -/
theorem sdGetStatus_eq_error (probe : SdProbe) :
    sdGetStatus probe = .error ↔ probe.present = false ∨ probe.sendStatus ≠ .ok := by
  have hbits : (probe.resp1 >>> 9) &&& 0x0F ≠ sdCardError := by
    intro h
    have hlt : ((probe.resp1 >>> 9) &&& 0x0F).toNat < 2 ^ 4 := by
      rw [UInt32.toNat_and]
      exact Nat.and_lt_two_pow _ (by decide : (0x0F : UInt32).toNat < 2 ^ 4)
    rw [h] at hlt
    exact absurd hlt (by decide)
  have hdiff : sdCardError ≠ sdCardTransfer := by decide
  unfold sdGetStatus sdGetState
  by_cases hpresent : probe.present = true
  · by_cases hsent : probe.sendStatus = .ok
    · simp only [hpresent, hsent, if_true, ne_eq, not_true_eq_false, if_false, hbits]
      split <;> simp
    · simp [hpresent, hsent, hdiff]
  · simp [hpresent, hdiff]

end Driver

section Answers

/-- What the driver answers to one `disk_read` or `disk_write`: to the call that starts the
transfer, with what a read stores, to the wait, and to each `SD_GetStatus` in turn. -/
structure SdAnswers where
  start : SdError
  data : Bytes
  wait : SdError
  status : Nat → SdTransferState

/-- The state counts the calls of `SD_GetStatus`. -/
def sdAnswer (sd : SdAnswers) (polls : Nat) (e : SdEvent) (polls' : Nat) : Prop :=
  match e with
  | ⟨.readMultiBlocks _ _ _, (start, data)⟩ =>
    (start = sd.start ∧ data = sd.data) ∧ polls' = polls
  | ⟨.writeMultiBlocks _ _ _ _, start⟩ => start = sd.start ∧ polls' = polls
  | ⟨.waitReadOperation, wait⟩ => wait = sd.wait ∧ polls' = polls
  | ⟨.waitWriteOperation, wait⟩ => wait = sd.wait ∧ polls' = polls
  | ⟨.getStatus, status⟩ => status = sd.status polls ∧ polls' = polls + 1

def Returns {α : Type} (sd : SdAnswers) (p : Nat → Sd α) (t : List SdEvent) (a : α) : Prop :=
  ∃ fuel polls, Runs (p fuel) t (.ok a) ∧ Follows (sdAnswer sd) 0 t polls

def EndsAt (status : Nat → SdTransferState) (n : Nat) : Prop :=
  status n = .ok ∧ ∀ i < n, status i ≠ .ok

theorem EndsAt.unique {status : Nat → SdTransferState} {m n : Nat} (hm : EndsAt status m)
    (hn : EndsAt status n) : m = n := by
  rcases Nat.lt_trichotomy m n with h | h | h
  · exact absurd hm.1 (hn.2 m h)
  · exact h
  · exact absurd hn.1 (hm.2 n h)

def pollTrace (status : Nat → SdTransferState) (n : Nat) : List SdEvent :=
  statusTrace ((List.range n).map status)

theorem follows_statusTrace_iff {sd : SdAnswers} {others : List SdTransferState} {k k' : Nat} :
    Follows (sdAnswer sd) k (statusTrace others) k' ↔
      others = (List.range' k others.length).map sd.status ∧
      sd.status (k + others.length) = .ok ∧ k' = k + others.length + 1 := by
  induction others generalizing k with
  | nil =>
    constructor
    · rintro ⟨u, ⟨hok, rfl⟩, rfl⟩
      exact ⟨rfl, hok.symm, rfl⟩
    · rintro ⟨-, hok, rfl⟩
      exact ⟨k + 1, ⟨hok.symm, rfl⟩, rfl⟩
  | cons status others ih =>
    have hlen : k + (others.length + 1) = k + 1 + others.length := by omega
    rw [List.length_cons, List.range'_succ, List.map_cons, List.cons.injEq, hlen]
    constructor
    · rintro ⟨u, ⟨hstatus, rfl⟩, hrest⟩
      obtain ⟨hothers, hok, hk⟩ := ih.mp hrest
      exact ⟨⟨hstatus, hothers⟩, hok, hk⟩
    · rintro ⟨⟨hstatus, hothers⟩, hok, hk⟩
      exact ⟨k + 1, ⟨hstatus, rfl⟩, ih.mpr ⟨hothers, hok, hk⟩⟩

theorem follows_polls_iff {sd : SdAnswers} {others : List SdTransferState} {k' : Nat} :
    .ok ∉ others ∧ Follows (sdAnswer sd) 0 (statusTrace others) k' ↔
      ∃ n, EndsAt sd.status n ∧ others = (List.range n).map sd.status ∧ k' = n + 1 := by
  rw [follows_statusTrace_iff, ← List.range_eq_range', Nat.zero_add]
  constructor
  · rintro ⟨hnot, hothers, hok, hk⟩
    refine ⟨others.length, ⟨hok, fun i hi hstatus => hnot ?_⟩, hothers, hk⟩
    rw [hothers]
    exact List.mem_map.mpr ⟨i, List.mem_range.mpr hi, hstatus⟩
  · rintro ⟨n, hends, rfl, rfl⟩
    rw [List.length_map, List.length_range]
    refine ⟨fun hmem => ?_, rfl, hends.1, rfl⟩
    obtain ⟨i, hi, hstatus⟩ := List.mem_map.mp hmem
    exact hends.2 i (List.mem_range.mp hi) hstatus

/-- The function makes the calls of `pre`, asks for the status until it is `SD_TRANSFER_OK`, and
returns `a`; when it never is, the function does not return. -/
def ReturnsAfter {α : Type} (sd : SdAnswers) (p : Nat → Sd α) (pre : List SdEvent) (a : α) : Prop :=
  ∀ t b, Returns sd p t b ↔
    ∃ n, EndsAt sd.status n ∧ t = pre ++ pollTrace sd.status n ∧ b = a

theorem returnsAfter_of_always {α X : Type} {sd : SdAnswers} {p : Nat → Sd α}
    {pre : X → List SdEvent} {ret : X → α} {x : X}
    (hp : ∀ fuel post, Always (p fuel) post ↔ ∀ (y : X) (others : List SdTransferState),
      others.length < fuel → .ok ∉ others → post (pre y ++ statusTrace others) (.ok (ret y)))
    (hpre : ∀ y polls, Follows (sdAnswer sd) 0 (pre y) polls ↔ y = x ∧ polls = 0) :
    ReturnsAfter sd p (pre x) (ret x) := by
  intro t b
  constructor
  · rintro ⟨fuel, polls, hrun, hf⟩
    have hall : Always (p fuel) (fun t r => r = .ok b → Follows (sdAnswer sd) 0 t polls →
        ∃ n, EndsAt sd.status n ∧ t = pre x ++ pollTrace sd.status n ∧ b = ret x) := by
      rw [hp]
      intro y others _ hnot hret hfollows
      obtain ⟨u, hstarted, hpolls⟩ := (follows_append 0 polls _ _).mp hfollows
      obtain ⟨rfl, rfl⟩ := (hpre y u).mp hstarted
      obtain ⟨n, hends, rfl, -⟩ := follows_polls_iff.mp ⟨hnot, hpolls⟩
      exact ⟨n, hends, rfl, (Except.ok.inj hret).symm⟩
    exact hall t _ hrun rfl hf
  · rintro ⟨n, hends, rfl, rfl⟩
    obtain ⟨hnot, hpolls⟩ := follows_polls_iff.mpr ⟨n, hends, rfl, rfl⟩
    have hlen : ((List.range n).map sd.status).length < n + 1 := by simp
    refine ⟨n + 1, n + 1, runs_of_always fun post h => (hp (n + 1) post).mp h x _ hlen hnot, ?_⟩
    exact (follows_append 0 (n + 1) _ _).mpr ⟨0, (hpre x 0).mpr ⟨rfl, rfl⟩, hpolls⟩

variable (sd : SdAnswers) (buff : Bytes) (sector : UInt32) (count : UInt8)

theorem diskRead_returns :
    ReturnsAfter sd (fun fuel => diskRead fuel buff sector count)
      [⟨.readMultiBlocks (sector <<< 9) 512 1, (sd.start, sd.data)⟩, ⟨.waitReadOperation, sd.wait⟩]
      (resOf sd.wait, sd.data ++ buff.drop sd.data.length) := by
  refine @returnsAfter_of_always _ ((SdError × Bytes) × SdError) sd _
    (fun y => [⟨.readMultiBlocks (sector <<< 9) 512 1, y.1⟩, ⟨.waitReadOperation, y.2⟩])
    (fun y => (resOf y.2, y.1.2 ++ buff.drop y.1.2.length)) ((sd.start, sd.data), sd.wait) ?_ ?_
  · intro fuel post
    rw [always_diskRead]
    exact ⟨fun h y => h y.1 y.2, fun h start wait => h (start, wait)⟩
  · rintro ⟨⟨start, data⟩, wait⟩ polls
    constructor
    · rintro ⟨u, ⟨⟨rfl, rfl⟩, rfl⟩, v, ⟨rfl, rfl⟩, rfl⟩
      exact ⟨rfl, rfl⟩
    · rintro ⟨hanswers, rfl⟩
      cases hanswers
      exact ⟨0, ⟨⟨rfl, rfl⟩, rfl⟩, 0, ⟨rfl, rfl⟩, rfl⟩

theorem diskWrite_returns :
    ReturnsAfter sd (fun fuel => diskWrite fuel buff sector count)
      [⟨.writeMultiBlocks buff (sector <<< 9) 512 1, sd.start⟩, ⟨.waitWriteOperation, sd.wait⟩]
      (resOf sd.wait) := by
  refine @returnsAfter_of_always _ (SdError × SdError) sd _
    (fun y => [⟨.writeMultiBlocks buff (sector <<< 9) 512 1, y.1⟩, ⟨.waitWriteOperation, y.2⟩])
    (fun y => resOf y.2) (sd.start, sd.wait) ?_ ?_
  · intro fuel post
    rw [always_diskWrite]
    exact ⟨fun h y => h y.1 y.2, fun h start wait => h (start, wait)⟩
  · rintro ⟨start, wait⟩ polls
    constructor
    · rintro ⟨u, ⟨rfl, rfl⟩, v, ⟨rfl, rfl⟩, rfl⟩
      exact ⟨rfl, rfl⟩
    · rintro ⟨hanswers, rfl⟩
      cases hanswers
      exact ⟨0, ⟨rfl, rfl⟩, 0, ⟨rfl, rfl⟩, rfl⟩

end Answers

section Reports

/-- Failures are reported: the function returns, with `RES_OK` only when the start and the
wait succeeded, and with `RES_ERROR` right after the first status that is an error. -/
structure Reports {α : Type} (sd : SdAnswers) (res : α → DResult) (p : Nat → Sd α) : Prop where
  returns : ∃ t a, Returns sd p t a
  ok_only : ∀ t a, Returns sd p t a → res a = .ok → sd.start = .ok ∧ sd.wait = .ok
  at_once : ∀ t a, Returns sd p t a → ∀ before after,
    t = before ++ ⟨.getStatus, SdTransferState.error⟩ :: after → after = [] ∧ res a = .error

theorem resOf_eq_ok (status : SdError) : resOf status = .ok ↔ status = .ok := by
  unfold resOf
  split <;> simp_all

theorem pollTrace_split (status : Nat → SdTransferState) {n i : Nat} (hi : i < n) :
    ∃ before after, pollTrace status n = before ++ ⟨.getStatus, status i⟩ :: after ∧
      after ≠ [] := by
  have hmem : (⟨.getStatus, status i⟩ : SdEvent) ∈
      ((List.range n).map status).map (⟨.getStatus, ·⟩) :=
    List.mem_map_of_mem (List.mem_map_of_mem (List.mem_range.mpr hi))
  obtain ⟨before, after, hsplit⟩ := List.append_of_mem hmem
  refine ⟨before, after ++ [⟨.getStatus, SdTransferState.ok⟩], ?_, by simp⟩
  rw [pollTrace, statusTrace, hsplit, List.append_assoc, List.cons_append]

theorem error_mem_pollTrace {status : Nat → SdTransferState} {n : Nat}
    (h : (⟨.getStatus, SdTransferState.error⟩ : SdEvent) ∈ pollTrace status n) :
    ∃ i < n, status i = .error := by
  simpa [pollTrace, statusTrace] using h

def Settles (status : Nat → SdTransferState) : Prop :=
  ∃ n, status n = .ok ∧ ∀ i < n, status i = .busy

variable {α : Type} {sd : SdAnswers} {p : Nat → Sd α} {pre : List SdEvent} {a : α}
  {res : α → DResult}

theorem ReturnsAfter.reports_iff (h : ReturnsAfter sd p pre a)
    (hpre : ∀ status : SdTransferState, (⟨.getStatus, status⟩ : SdEvent) ∉ pre)
    (hres : res a = resOf sd.wait) :
    Reports sd res p ↔ Settles sd.status ∧ (sd.start = .ok ∨ sd.wait ≠ .ok) := by
  constructor
  · intro hreports
    obtain ⟨t, b, hret⟩ := hreports.returns
    obtain ⟨n, hends, rfl, rfl⟩ := (h t b).mp hret
    constructor
    · refine ⟨n, hends.1, fun i hi => ?_⟩
      have hnoerror : sd.status i ≠ .error := by
        intro herror
        obtain ⟨before, after, hsplit, hafter⟩ := pollTrace_split sd.status hi
        rw [herror] at hsplit
        refine hafter (hreports.at_once _ _ hret (pre ++ before) after ?_).1
        rw [hsplit, List.append_assoc]
      have hnotok := hends.2 i hi
      cases hstatus : sd.status i with
      | ok => exact absurd hstatus hnotok
      | busy => rfl
      | error => exact absurd hstatus hnoerror
    · by_cases hwait : sd.wait = .ok
      · have hok : res b = .ok := hres.trans ((resOf_eq_ok _).mpr hwait)
        exact .inl (hreports.ok_only _ _ hret hok).1
      · exact .inr hwait
  · rintro ⟨⟨n, hok, hbusy⟩, hstart⟩
    have hends : EndsAt sd.status n := ⟨hok, fun i hi => by simp [hbusy i hi]⟩
    refine ⟨⟨_, a, (h _ a).mpr ⟨n, hends, rfl, rfl⟩⟩, ?_, ?_⟩
    · intro t b hret hresok
      obtain ⟨m, -, -, rfl⟩ := (h t b).mp hret
      have hwait : sd.wait = .ok := (resOf_eq_ok _).mp (hres.symm.trans hresok)
      exact ⟨hstart.resolve_right (not_not_intro hwait), hwait⟩
    · intro t b hret before after hsplit
      obtain ⟨m, hm, rfl, rfl⟩ := (h t b).mp hret
      obtain rfl : m = n := hm.unique hends
      have hmem : (⟨.getStatus, SdTransferState.error⟩ : SdEvent) ∈
          pre ++ pollTrace sd.status m := by
        rw [hsplit]
        simp
      cases List.mem_append.mp hmem with
      | inl hstarted => exact absurd hstarted (hpre .error)
      | inr hpoll =>
        obtain ⟨i, hi, herror⟩ := error_mem_pollTrace hpoll
        rw [hbusy i hi] at herror
        cases herror

/-- Failures are reported exactly when the first status other than `SD_TRANSFER_BUSY` is
`SD_TRANSFER_OK`, and a start that failed makes the wait fail as well. -/
theorem disk_errors_reported_iff (sd : SdAnswers) (buff : Bytes) (sector : UInt32)
    (count : UInt8) :
    (Reports sd Prod.fst (fun fuel => diskRead fuel buff sector count) ↔
      Settles sd.status ∧ (sd.start = .ok ∨ sd.wait ≠ .ok)) ∧
    (Reports sd id (fun fuel => diskWrite fuel buff sector count) ↔
      Settles sd.status ∧ (sd.start = .ok ∨ sd.wait ≠ .ok)) := by
  constructor
  · exact (diskRead_returns sd buff sector count).reports_iff (by simp) rfl
  · exact (diskWrite_returns sd buff sector count).reports_iff (by simp) rfl

end Reports

section Hardware

/-- A transfer that fails below the driver: what the start reports, how the transfer ends, and
what each `SD_GetStatus` finds. -/
structure SdHardware where
  start : SdError
  data : Bytes
  transfer : SdTransfer
  probe : Nat → SdProbe

def SdHardware.answers (hw : SdHardware) (wait : SdTransfer → SdError) : SdAnswers where
  start := hw.start
  data := hw.data
  wait := wait hw.transfer
  status := fun n => sdGetStatus (hw.probe n)

/-- A card that is pulled out before the transfer is over keeps the function in its loop. -/
theorem ReturnsAfter.pulled {α : Type} {hw : SdHardware} {wait : SdTransfer → SdError}
    {p : Nat → Sd α} {pre : List SdEvent} {a : α} {m : Nat}
    (h : ReturnsAfter (hw.answers wait) p pre a)
    (hbefore : ∀ i < m, sdGetStatus (hw.probe i) ≠ .ok)
    (hpulled : ∀ i, m ≤ i → (hw.probe i).present = false) (t : List SdEvent) (b : α) :
    ¬Returns (hw.answers wait) p t b := by
  intro hret
  obtain ⟨n, ⟨hok, -⟩, -⟩ := (h t b).mp hret
  rcases Nat.lt_or_ge n m with hn | hn
  · exact hbefore n hn hok
  · have herror := (sdGetStatus_eq_error (hw.probe n)).mpr (.inl (hpulled n hn))
    exact absurd (hok.symm.trans herror) (by simp)

theorem sdWaitOperation_idle {flag : UInt32} {transfer : SdTransfer}
    (hidle : transfer.sta 0 &&& flag = 0) (hstop : transfer.stopTransfer = .ok)
    (herror : transfer.transferError = .ok) : sdWaitOperation flag transfer = .ok := by
  rw [sdWaitOperation_eq_ok, whileActive_idle hidle]
  exact ⟨by decide, fun _ => hstop, herror⟩

theorem unstarted_read_ok {hw : SdHardware} (hidle : hw.transfer.sta 0 &&& sdioFlagRxact = 0)
    (hstop : hw.transfer.stopTransfer = .ok) (herror : hw.transfer.transferError = .ok)
    (hdata : hw.data = []) {buff : Bytes} {sector : UInt32} {count : UInt8} {t : List SdEvent}
    {a : DResult × Bytes}
    (h : Returns (hw.answers sdWaitReadOperation)
      (fun fuel => diskRead fuel buff sector count) t a) : a = (.ok, buff) := by
  obtain ⟨n, -, -, rfl⟩ := (diskRead_returns _ buff sector count t a).mp h
  have hwait : (hw.answers sdWaitReadOperation).wait = .ok :=
    sdWaitOperation_idle hidle hstop herror
  have hnone : (hw.answers sdWaitReadOperation).data = [] := hdata
  rw [hwait, hnone]
  rfl

theorem unstarted_write_ok {hw : SdHardware} (hidle : hw.transfer.sta 0 &&& sdioFlagTxact = 0)
    (hstop : hw.transfer.stopTransfer = .ok) (herror : hw.transfer.transferError = .ok)
    {buff : Bytes} {sector : UInt32} {count : UInt8} {t : List SdEvent} {a : DResult}
    (h : Returns (hw.answers sdWaitWriteOperation)
      (fun fuel => diskWrite fuel buff sector count) t a) : a = .ok := by
  obtain ⟨n, -, -, rfl⟩ := (diskWrite_returns _ buff sector count t a).mp h
  have hwait : (hw.answers sdWaitWriteOperation).wait = .ok :=
    sdWaitOperation_idle hidle hstop herror
  rw [hwait]
  rfl

def pulledCard : SdHardware where
  start := .ok
  data := []
  transfer :=
    { sta := fun _ => 0, stopCondition := 1, stopTransfer := sdCmdRspTimeout,
      transferError := sdDataTimeout }
  probe := fun _ => { present := false, sendStatus := sdCmdRspTimeout, resp1 := 0 }

theorem pulled_card_unreported :
    ¬∀ (sd : SdAnswers) (buff : Bytes) (sector : UInt32) (count : UInt8),
      (∃ i, sd.status i ≠ .busy) →
      Reports sd Prod.fst (fun fuel => diskRead fuel buff sector count) ∧
      Reports sd id (fun fuel => diskWrite fuel buff sector count) := by
  intro h
  have hstatus : (pulledCard.answers sdWaitReadOperation).status 0 ≠ .busy := by decide
  obtain ⟨t, a, hret⟩ := (h (pulledCard.answers sdWaitReadOperation) [] 0 1 ⟨0, hstatus⟩).1.returns
  refine (diskRead_returns _ [] 0 1).pulled (m := 0) ?_ ?_ t a hret
  · intro i hi
    exact absurd hi (Nat.not_lt_zero i)
  · intro i _
    rfl

end Hardware

end FtpServer

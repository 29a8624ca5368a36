import FtpServer.Nodes
import FtpServer.Readfds

/-! A connection being accepted: `alloc_new_conn` and what `ftpd_thread` does around it. A
field of the new node is undefined until something is stored in it. -/

namespace FtpServer
open CString LinkedList

/-- `struct conn` without its link; `none` is what `malloc` left. -/
structure ConnFields where
  sockfd : Option Int := none
  remote : Option UInt32 := none
  status : Option FtpState := none
  pasvActive : Option UInt8 := none
  pasvSockfd : Option Int := none
  pasvPort : Option UInt16 := none
  offset : Option UInt32 := none
  currentdir : Option Bytes := none

structure ConnFields.Defined (fields : ConnFields) : Prop where
  sockfd : fields.sockfd.isSome
  remote : fields.remote.isSome
  status : fields.status.isSome
  pasvActive : fields.pasvActive.isSome
  pasvSockfd : fields.pasvSockfd.isSome
  pasvPort : fields.pasvPort.isSome
  offset : fields.offset.isSome
  currentdir : fields.currentdir.isSome

def ConnFields.over (fields : ConnFields) (garbage : Conn) : Conn where
  sockfd := fields.sockfd.getD garbage.sockfd
  remote := fields.remote.getD garbage.remote
  status := fields.status.getD garbage.status
  pasvActive := fields.pasvActive.getD garbage.pasvActive
  pasvSockfd := fields.pasvSockfd.getD garbage.pasvSockfd
  pasvPort := fields.pasvPort.getD garbage.pasvPort
  offset := fields.offset.getD garbage.offset
  currentdir := fields.currentdir.getD garbage.currentdir

inductive ListenerCall where
  | send (sock : Int) (text : Bytes)
  | close (sock : Int)

structure Listening where
  heap : Heap Nat ConnFields
  connList : Ptr
  readfds : FdSet
  calls : List ListenerCall

/-- What was changed before a fault stays changed. -/
abbrev Listener := ExceptT Fault (StateM Listening)

section Source

def ftpWelcomeMsg : Bytes := bytes "220 Test FTP server for CC3200 ready.\r\n"

def listenerCall (c : ListenerCall) : Listener Unit :=
  modify fun s => { s with calls := s.calls ++ [c] }

/-- `malloc(sizeof(struct conn))`; the link of the node is stored before it is read. -/
def mallocConn (mem : Ptr) : Listener Ptr := do
  match mem with
  | none => pure none
  | some addr =>
    modify fun s => { s with heap := Function.update s.heap addr (some ⟨{}, none⟩) }
    pure (some addr)

def storeConn (conn : Ptr) (store : Node Nat ConnFields → Node Nat ConnFields) :
    Listener Unit := do
  match conn with
  | none => throw .nullPointer
  | some addr =>
    modify fun s => { s with heap := Function.update s.heap addr ((s.heap addr).map store) }

def storeFields (conn : Ptr) (store : ConnFields → ConnFields) : Listener Unit :=
  storeConn conn fun node => { node with val := store node.val }

def allocNewConn (mem : Ptr) : Listener Ptr := do
  let conn ← mallocConn mem
  let connList := (← get).connList
  storeConn conn fun node => { node with next := connList }
  storeFields conn fun fields => { fields with offset := some 0 }
  modify fun s => { s with connList := conn }
  pure conn

/-- The branch of `ftpd_thread` on an incoming connection; `answer` is what `accept` returns,
`mem` what `malloc` does. -/
def acceptConnection (answer : AcceptResult) (mem : Ptr) : Listener Unit := do
  if answer.sock = -1 then pure ()
  else do
    listenerCall (.send answer.sock ftpWelcomeMsg)
    modify fun s => { s with readfds := fdSet answer.sock s.readfds }
    let conn ← allocNewConn mem
    if conn ≠ none then do
      storeFields conn fun fields => { fields with currentdir := some ftpSrvRoot }
      storeFields conn fun fields => { fields with sockfd := some answer.sock }
      storeFields conn fun fields => { fields with remote := some answer.remote }
    else pure ()

end Source

section Runs
variable (s : Listening)

theorem listener_bind {α β : Type} (p : Listener α) (f : α → Listener β) :
    (p >>= f) s =
      match p s with
      | (.ok a, s') => f a s'
      | (.error e, s') => (.error e, s') := by
  have hbind : (p >>= f) s = ExceptT.bindCont f (p s).1 (p s).2 := rfl
  rw [hbind]
  rcases p s with ⟨_ | _, s'⟩ <;> rfl

theorem listener_modify (f : Listening → Listening) :
    (modify f : Listener Unit) s = (.ok (), f s) := rfl

theorem listener_get : (get : Listener Listening) s = (.ok s, s) := rfl

end Runs

section Nodes
variable (answer : AcceptResult) (s : Listening)

def acceptedFields (answer : AcceptResult) : ConnFields where
  sockfd := some answer.sock
  remote := some answer.remote
  offset := some 0
  currentdir := some ftpSrvRoot

theorem acceptConnection_stores (haccepted : answer.sock ≠ -1) (addr : Nat) :
    acceptConnection answer (some addr) s = (.ok (), {
      heap := Function.update s.heap addr (some ⟨acceptedFields answer, s.connList⟩)
      connList := some addr
      readfds := fdSet answer.sock s.readfds
      calls := s.calls ++ [.send answer.sock ftpWelcomeMsg] }) := by
  simp [acceptConnection, haccepted, allocNewConn, mallocConn, storeConn, storeFields,
    listenerCall, listener_bind, listener_modify, listener_get, acceptedFields]

theorem acceptConnection_faults (haccepted : answer.sock ≠ -1) :
    acceptConnection answer none s = (.error .nullPointer, { s with
      readfds := fdSet answer.sock s.readfds
      calls := s.calls ++ [.send answer.sock ftpWelcomeMsg] }) := by
  simp [acceptConnection, haccepted, allocNewConn, mallocConn, storeConn, storeFields,
    listenerCall, listener_bind, listener_modify, listener_get]
  rfl

theorem newConn_eq (garbage : Conn) :
    newConn { garbage with remote := answer.remote } answer.sock =
      (acceptedFields answer).over garbage := rfl

end Nodes

section Outcomes
variable (answer : AcceptResult) (s : Listening)

/-- One node more, at the head of the list, with a value in every field that is read. -/
def AddsSession (s s' : Listening) : Prop :=
  ∃ addr fields, fields.Defined ∧ s'.connList = some addr ∧
    s'.heap = Function.update s.heap addr (some ⟨fields, s.connList⟩) ∧
    s'.readfds = fdSet answer.sock s.readfds

/-- The connection is closed, and nothing else has changed. -/
def Refuses (s s' : Listening) : Prop :=
  s'.connList = s.connList ∧ s'.readfds = s.readfds ∧
    ∃ calls, s'.calls = s.calls ++ calls ∧ ListenerCall.close answer.sock ∈ calls

def AllOrNothing (mem : Ptr) : Prop :=
  ∃ s', acceptConnection answer mem s = (.ok (), s') ∧
    (AddsSession answer s s' ∨ mem = none ∧ Refuses answer s s')

variable {answer}

theorem not_allOrNothing_stored (haccepted : answer.sock ≠ -1) (addr : Nat) :
    ¬AllOrNothing answer s (some addr) := by
  rintro ⟨s', hrun, ⟨addr', fields, hdefined, hlist, hheap, -⟩ | ⟨hfailed, -⟩⟩
  · rw [acceptConnection_stores answer s haccepted] at hrun
    obtain ⟨-, rfl⟩ := Prod.mk.inj hrun
    obtain rfl : addr = addr' := Option.some.inj hlist
    have hnode : acceptedFields answer = fields := by simpa using congrFun hheap addr
    subst hnode
    exact absurd hdefined.status (by simp [acceptedFields])
  · cases hfailed

theorem not_allOrNothing_failed (haccepted : answer.sock ≠ -1) :
    ¬AllOrNothing answer s none := by
  rintro ⟨s', hrun, -⟩
  rw [acceptConnection_faults answer s haccepted] at hrun
  cases hrun

/-- Whatever `malloc` does, a connection is neither served nor refused as a whole: a node comes
with undefined fields, and without memory its first store goes through NULL. -/
theorem accept_never_all_or_nothing (haccepted : answer.sock ≠ -1) (mem : Ptr) :
    ¬AllOrNothing answer s mem := by
  cases mem with
  | none => exact not_allOrNothing_failed s haccepted
  | some addr => exact not_allOrNothing_stored s haccepted addr

def noSessions : Listening where
  heap := fun _ => none
  connList := none
  readfds := fdSet 0 (fun _ => false)
  calls := []

theorem accept_never_all_or_nothing_first : ¬AllOrNothing ⟨1, 0⟩ noSessions (some 4) :=
  accept_never_all_or_nothing noSessions (by decide) (some 4)

theorem accept_without_memory :
    ¬∀ (answer : AcceptResult) (s : Listening) (mem : Ptr), answer.sock ≠ -1 →
      AllOrNothing answer s mem := by
  intro h
  have hnothing := h ⟨1, 0⟩ noSessions none (by decide)
  exact not_allOrNothing_failed noSessions (by decide) hnothing

end Outcomes

end FtpServer

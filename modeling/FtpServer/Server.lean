import FtpServer.Sockets

/-! `ftpd_thread`: the loop around `select`, with one step for each thing it does. Which
descriptors `select` reports is left open, and so is the memory `malloc` returns. -/

namespace FtpServer
open Interaction CString Transition

/-- A node of `conn_list`. Its number stands for its address; `live` records whether its
requests have given it a data connection that it has not closed since. -/
structure Session where
  id : Nat
  conn : Conn
  live : Bool

/-- Before `select`, or on the walk through `conn_list` after it. -/
inductive Phase where
  | waiting
  | walking (ready : Int → Bool)

structure Server where
  sockets : Table
  listener : Int
  phase : Phase
  /-- The nodes the walk has passed, the last one first. -/
  walked : List Session
  ahead : List Session
  next : Nat

def Server.connList (s : Server) : List Session := s.walked.reverse ++ s.ahead

def Server.current (s : Server) : Option Session := s.ahead.head?

/-- `alloc_new_conn` and the stores after it. The peer's address is left open, and all other
fields are what `malloc` left. -/
def newConn (garbage : Conn) (fd : Int) : Conn :=
  { garbage with sockfd := fd, currentdir := ftpSrvRoot, offset := 0 }

inductive Action where
  /-- `select` returned 0, or `accept` failed. -/
  | idle
  /-- `select` returned without a connection to accept. -/
  | walk (ready : Int → Bool)
  | accept (ready : Int → Bool) (fd : Int) (garbage : Conn)
  /-- Nothing to read on the control connection of the current node. -/
  | skip
  /-- `recv` returned 0 or -1. -/
  | disconnect
  | request (req : Request)
  | finish

def Server.accepted (s : Server) (ready : Int → Bool) (fd : Int) (garbage : Conn) : Server :=
  { s with
    sockets := Function.update s.sockets fd (some (.control s.next))
    phase := .walking ready
    ahead := ⟨s.next, newConn garbage fd, false⟩ :: s.ahead
    next := s.next + 1 }

def Server.pass (s : Server) (c : Session) (rest : List Session) : Server :=
  { s with walked := c :: s.walked, ahead := rest }

/-- `close(conn->sockfd)` and `destroy_conn`. -/
def Server.destroy (s : Server) (c : Session) (rest : List Session) : Server :=
  { s with sockets := s.sockets.close c.conn.sockfd, ahead := rest }

/-- The current node after `ftp_process_request`, and the descriptors. -/
def Server.served (s : Server) (c : Session) (rest : List Session) (sockets : Table) : Server :=
  { s with sockets := sockets, ahead := c :: rest }

def Session.after (c : Session) (t : List CallEvent) (conn : Conn) : Session :=
  { c with conn := conn, live := liveAfter t c.live }

def serverStep (s : Server) (a : Action) (s' : Server) : Prop :=
  match a with
  | .idle => s.phase = .waiting ∧ s' = s
  | .walk ready => s.phase = .waiting ∧ s' = { s with phase := .walking ready }
  | .accept ready fd garbage =>
    s.phase = .waiting ∧ 0 ≤ fd ∧ s.sockets fd = none ∧
      s' = s.accepted ready fd garbage
  | .skip => ∃ ready c rest, s.phase = .walking ready ∧ s.ahead = c :: rest ∧
    ready c.conn.sockfd = false ∧ s' = s.pass c rest
  | .disconnect => ∃ ready c rest, s.phase = .walking ready ∧ s.ahead = c :: rest ∧
    ready c.conn.sockfd = true ∧ s' = s.destroy c rest
  | .request req => ∃ ready c rest conn ret sockets,
    s.phase = .walking ready ∧ s.ahead = c :: rest ∧ ready c.conn.sockfd = true ∧
      req.received ≠ [] ∧ Serves c.conn req conn ret ∧
      Follows (socketStep c.id req.cmd) s.sockets req.calls sockets ∧
      s' = if ret = -1 then
          (s.served (c.after req.calls conn) rest sockets).destroy (c.after req.calls conn) rest
        else (s.served (c.after req.calls conn) rest sockets).pass (c.after req.calls conn) rest
  | .finish => ∃ ready, s.phase = .walking ready ∧ s.ahead = [] ∧
    s' = { s with phase := .waiting, walked := [], ahead := s.walked.reverse }

def started (listener : Int) : Server where
  sockets := fun fd => if fd = listener then some .listener else none
  listener := listener
  phase := .waiting
  walked := []
  ahead := []
  next := 0

/-- What holds of the descriptors as long as every session acts on its own. -/
structure Safe (s : Server) : Prop where
  sane : s.sockets.Sane
  listener : s.sockets s.listener = some .listener
  control : ∀ c ∈ s.connList, s.sockets c.conn.sockfd = some (.control c.id)
  data : ∀ c ∈ s.connList, c.live = true → s.sockets c.conn.pasvSockfd = some (.data c.id)
  ids : (s.connList.map Session.id).Nodup
  numbered : ∀ c ∈ s.connList, c.id < s.next

theorem safe_started {listener : Int} (h : 0 ≤ listener) : Safe (started listener) where
  sane := by
    intro fd hneg
    simp only [started, ite_eq_right_iff, reduceCtorEq, imp_false]
    omega
  listener := by simp [started]
  control := by simp [started, Server.connList]
  data := by simp [started, Server.connList]
  ids := by simp [started, Server.connList]
  numbered := by simp [started, Server.connList]

theorem Safe.of_nodes {s s' : Server} (h : Safe s) (hsockets : s'.sockets = s.sockets)
    (hlistener : s'.listener = s.listener) (hnodes : s'.connList = s.connList)
    (hnext : s'.next = s.next) : Safe s' where
  sane := by
    rw [hsockets]
    exact h.sane
  listener := by
    rw [hsockets, hlistener]
    exact h.listener
  control := by
    rw [hsockets, hnodes]
    exact h.control
  data := by
    rw [hsockets, hnodes]
    exact h.data
  ids := by
    rw [hnodes]
    exact h.ids
  numbered := by
    rw [hnodes, hnext]
    exact h.numbered

section Current
variable {s : Server} {c : Session} {rest : List Session} (hahead : s.ahead = c :: rest)
include hahead

theorem mem_connList (x : Session) :
    x ∈ s.connList ↔ x = c ∨ x ∈ s.walked.reverse ++ rest := by
  simp only [Server.connList, hahead, List.mem_append, List.mem_cons]
  tauto

theorem connList_pass : (s.pass c rest).connList = s.connList := by
  simp [Server.connList, Server.pass, hahead]

theorem Safe.ne_of_other (h : Safe s) {other : Session}
    (hother : other ∈ s.walked.reverse ++ rest) : other.id ≠ c.id := by
  have hids := h.ids
  rw [Server.connList, hahead, List.map_append, List.map_cons, List.nodup_middle,
    ← List.map_append] at hids
  intro hsame
  exact (List.nodup_cons.mp hids).1 (hsame ▸ List.mem_map_of_mem hother)

theorem Safe.pass (h : Safe s) : Safe (s.pass c rest) :=
  h.of_nodes rfl rfl (connList_pass hahead) rfl

theorem Safe.destroy (h : Safe s) : Safe (s.destroy c rest) := by
  have hc := h.control c ((mem_connList hahead c).mpr (.inl rfl))
  have hmem : ∀ {x}, x ∈ (s.destroy c rest).connList → x ∈ s.connList :=
    fun hx => (mem_connList hahead _).mpr (.inr hx)
  have hkept : ∀ {fd owner}, s.sockets fd = some owner → owner ≠ .control c.id →
      (s.destroy c rest).sockets fd = some owner := by
    intro fd owner hfd howner
    have hne : fd ≠ c.conn.sockfd := by
      rintro rfl
      rw [hc] at hfd
      exact howner (Option.some.inj hfd).symm
    exact (s.sockets.close_of_ne hne).trans hfd
  refine ⟨h.sane.close _, hkept h.listener (by simp), ?_, ?_, ?_, ?_⟩
  · intro x hx
    have hne := h.ne_of_other hahead hx
    exact hkept (h.control x (hmem hx)) (by simp [hne])
  · intro x hx hlive
    exact hkept (h.data x (hmem hx) hlive) (by simp)
  · have hids := h.ids
    rw [Server.connList, hahead, List.map_append, List.map_cons, List.nodup_middle] at hids
    rw [Server.connList, Server.destroy, List.map_append]
    exact (List.nodup_cons.mp hids).2
  · exact fun x hx => h.numbered x (hmem hx)

theorem Safe.served (h : Safe s) {c' : Session} {tbl : Table}
    (hkeeps : KeepsOthers c.id s.sockets tbl) (hsane : tbl.Sane) (hid : c'.id = c.id)
    (hsockfd : c'.conn.sockfd = c.conn.sockfd)
    (hlive : c'.live = true → tbl c'.conn.pasvSockfd = some (.data c.id)) :
    Safe (s.served c' rest tbl) := by
  have hmem : ∀ {x}, x ∈ (s.served c' rest tbl).connList →
      x = c' ∨ x ∈ s.walked.reverse ++ rest := by
    intro x hx
    simp only [Server.connList, Server.served, List.mem_append, List.mem_cons] at hx ⊢
    tauto
  have hin := fun x => mem_connList hahead x
  refine ⟨hsane, ?_, ?_, ?_, ?_, ?_⟩
  · exact (hkeeps _ _ (by simp [Owner.Mine])).mpr h.listener
  · intro x hx
    refine (hkeeps _ _ (by simp [Owner.Mine])).mpr ?_
    rcases hmem hx with rfl | hother
    · rw [hsockfd, hid]
      exact h.control c ((hin c).mpr (.inl rfl))
    · exact h.control x ((hin x).mpr (.inr hother))
  · intro x hx hxlive
    rcases hmem hx with rfl | hother
    · rw [hid]
      exact hlive hxlive
    · have hne := h.ne_of_other hahead hother
      have hold := h.data x ((hin x).mpr (.inr hother)) hxlive
      exact (hkeeps _ _ (by simp [Owner.Mine, hne])).mpr hold
  · have hids := h.ids
    rw [Server.connList, hahead] at hids
    simpa [Server.connList, Server.served, hid] using hids
  · intro x hx
    rcases hmem hx with rfl | hother
    · rw [hid]
      exact h.numbered c ((hin c).mpr (.inl rfl))
    · exact h.numbered x ((hin x).mpr (.inr hother))

end Current

theorem Safe.accept {s : Server} (h : Safe s) {fd : Int} (hpos : 0 ≤ fd)
    (hfree : s.sockets fd = none) (ready : Int → Bool) (garbage : Conn) :
    Safe (s.accepted ready fd garbage) := by
  have hmem : ∀ {x}, x ∈ (s.accepted ready fd garbage).connList →
      x = ⟨s.next, newConn garbage fd, false⟩ ∨ x ∈ s.connList := by
    intro x hx
    simp only [Server.connList, Server.accepted, List.mem_append, List.mem_cons] at hx ⊢
    tauto
  have hkept : ∀ {fd' owner}, s.sockets fd' = some owner →
      (s.accepted ready fd garbage).sockets fd' = some owner := by
    intro fd' owner hfd
    have hne : fd' ≠ fd := by
      rintro rfl
      rw [hfree] at hfd
      cases hfd
    exact (Function.update_of_ne hne _ _).trans hfd
  refine ⟨h.sane.obtains (.inr ⟨hpos, hfree, rfl⟩), hkept h.listener, ?_, ?_, ?_, ?_⟩
  · intro x hx
    rcases hmem hx with rfl | hold
    · exact Function.update_self ..
    · exact hkept (h.control x hold)
  · intro x hx hlive
    rcases hmem hx with rfl | hold
    · cases hlive
    · exact hkept (h.data x hold hlive)
  · have hnew : s.next ∉ s.connList.map Session.id := by
      intro hin
      obtain ⟨x, hx, hid⟩ := List.mem_map.mp hin
      have hlt := h.numbered x hx
      omega
    have hids := h.ids
    rw [Server.connList, List.map_append] at hids hnew
    rw [Server.connList, Server.accepted, List.map_append, List.map_cons, List.nodup_middle]
    exact List.nodup_cons.mpr ⟨hnew, hids⟩
  · intro x hx
    rcases hmem hx with rfl | hold
    · exact Nat.lt_succ_self _
    · exact Nat.lt_succ_of_lt (h.numbered x hold)

end FtpServer

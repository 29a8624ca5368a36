import FtpServer.Server
import FtpServer.Library.LinkedList

/-! `conn_list` as it lies in memory: nodes linked by `next`, and the walk that saves
`conn->next` before it serves a node. -/

namespace FtpServer
open Interaction CString Transition LinkedList

/-- `none` is NULL. -/
abbrev Ptr := Option Nat

abbrev Nodes := Heap Nat Session

/-- The loop of `destroy_conn`: the node in front of `conn`. There is no result when it reads
through NULL, or does not end within `fuel` turns. -/
def nodeBefore (heap : Nodes) (conn : Nat) : Nat → Ptr → Option Nat
  | 0, _ => none
  | fuel + 1, list => do
    let a ← list
    let node ← heap a
    if node.next = some conn then some a else nodeBefore heap conn fuel node.next

/-- `destroy_conn`: the nodes and `conn_list` after it; `free` takes the node with the NULL
stored in it. -/
def destroyConn (fuel : Nat) (heap : Nodes) (connList : Ptr) (conn : Nat) :
    Option (Nodes × Ptr) := do
  let node ← heap conn
  if connList = some conn then some (Function.update heap conn none, node.next)
  else do
    let list ← nodeBefore heap conn fuel connList
    let before ← heap list
    some (Function.update (Function.update heap list (some { before with next := node.next }))
      conn none, connList)

theorem nodeBefore_eq {heap : Nodes} {list : Ptr} {before after : List (Nat × Session)}
    {a b : Nat} {u v : Session} (h : Chain heap list (before ++ (b, u) :: (a, v) :: after))
    {fuel : Nat} (hfuel : before.length < fuel) : nodeBefore heap a fuel list = some b := by
  induction before generalizing list fuel with
  | nil =>
    obtain ⟨fuel, rfl⟩ := Nat.exists_eq_add_of_lt hfuel
    obtain ⟨rfl, next, hnode, hrest⟩ := h
    have hnext : next = some a := hrest.1
    simp [nodeBefore, hnode, hnext]
  | cons n before ih =>
    obtain ⟨c, w⟩ := n
    obtain ⟨fuel, rfl⟩ : ∃ k, fuel = k + 1 := ⟨fuel - 1, by omega⟩
    obtain ⟨rfl, next, hnode, hrest⟩ := h
    have hnext : next ≠ some a := by
      rintro rfl
      obtain ⟨r, -, -, next', -, htail⟩ := segment_append.mp hrest
      obtain rfl : next' = some a := htail.1
      -- from `a` on there would be two chains
      have hlen := congrArg List.length (Chain.unique htail hrest)
      simp at hlen
      omega
    have hbefore : nodeBefore heap a fuel next = some b := ih hrest (by simpa using hfuel)
    simpa [nodeBefore, hnode, hnext] using hbefore

theorem nodeBefore_mono {heap : Nodes} {a b fuel fuel' : Nat} {list : Ptr} (hle : fuel ≤ fuel')
    (h : nodeBefore heap a fuel list = some b) : nodeBefore heap a fuel' list = some b := by
  induction fuel generalizing fuel' list with
  | zero => cases h
  | succ fuel ih =>
    obtain ⟨fuel', rfl⟩ : ∃ k, fuel' = k + 1 := ⟨fuel' - 1, by omega⟩
    simp only [nodeBefore, Option.bind_eq_bind, Option.bind_eq_some_iff] at h ⊢
    obtain ⟨c, hc, node, hnode, hfound⟩ := h
    refine ⟨c, hc, node, hnode, ?_⟩
    split
    · rename_i hnext
      simpa [hnext] using hfound
    · rename_i hnext
      rw [if_neg hnext] at hfound
      exact ih (by omega) hfound

theorem destroyConn_mono {heap : Nodes} {a fuel fuel' : Nat} {connList : Ptr}
    {out : Nodes × Ptr} (hle : fuel ≤ fuel') (h : destroyConn fuel heap connList a = some out) :
    destroyConn fuel' heap connList a = some out := by
  simp only [destroyConn, Option.bind_eq_bind, Option.bind_eq_some_iff] at h ⊢
  obtain ⟨node, hnode, hout⟩ := h
  refine ⟨node, hnode, ?_⟩
  split
  · rename_i hhead
    simpa [hhead] using hout
  · rename_i hhead
    rw [if_neg hhead, Option.bind_eq_some_iff] at hout
    obtain ⟨b, hb, hrest⟩ := hout
    rw [Option.bind_eq_some_iff]
    exact ⟨b, nodeBefore_mono hle hb, hrest⟩

theorem destroyConn_removes {heap : Nodes} {connList : Ptr} {before after : List (Nat × Session)}
    {a : Nat} {v : Session} (h : Chain heap connList (before ++ (a, v) :: after)) :
    ∃ heap' connList', (∀ fuel, before.length < fuel →
        destroyConn fuel heap connList a = some (heap', connList')) ∧
      Chain heap' connList' (before ++ after) := by
  obtain ⟨r, hbefore, htail⟩ := segment_append.mp h
  obtain ⟨rfl, next, hnode, -⟩ := id htail
  rcases List.eq_nil_or_concat before with rfl | ⟨init, ⟨b, u⟩, rfl⟩
  · obtain rfl : connList = some a := hbefore
    refine ⟨_, _, fun fuel _ => ?_, Chain.unlink_head h hnode⟩
    simp [destroyConn, hnode]
  · rw [List.concat_eq_append] at *
    have hmiddle : Chain heap connList (init ++ (b, u) :: (a, v) :: after) := by
      simpa using h
    have hhead : connList ≠ some a := by
      rintro rfl
      have hlen := congrArg List.length (Chain.unique htail h)
      simp at hlen
      omega
    obtain ⟨r, -, rfl, hlast, hb, rfl⟩ := segment_append.mp hbefore
    have hunlinked := Chain.unlink_next hmiddle hnode
    refine ⟨_, _, fun fuel hfuel => ?_, by simpa using hunlinked⟩
    have hfound : nodeBefore heap a fuel connList = some b := by
      apply nodeBefore_eq hmiddle
      rw [List.length_append] at hfuel
      omega
    simp [destroyConn, hnode, hhead, hfound, hb]

inductive Visit where
  | skip
  | disconnect
  | request (req : Request) (ret : Int)

inductive PtrAction where
  | idle
  | walk (ready : Int → Bool)
  | accept (ready : Int → Bool) (fd : Int) (garbage : Conn) (addr : Nat)
  | visit (addr : Nat) (v : Visit)
  | finish

/-- The server with its nodes in memory; `conn` is the pointer of the walk. -/
structure PtrServer where
  sockets : Table
  listener : Int
  phase : Phase
  heap : Nodes
  connList : Ptr
  conn : Ptr
  next : Nat

def PtrServer.accepted (s : PtrServer) (ready : Int → Bool) (fd : Int) (garbage : Conn)
    (addr : Nat) : PtrServer :=
  { s with
    sockets := Function.update s.sockets fd (some (.control s.next))
    phase := .walking ready
    heap := Function.update s.heap addr
      (some ⟨⟨s.next, newConn garbage fd, false⟩, s.connList⟩)
    connList := some addr
    conn := some addr
    next := s.next + 1 }

/-- `close(conn->sockfd)` and `destroy_conn`; the walk goes on to the node that was saved. -/
def PtrServer.Destroys (s : PtrServer) (addr : Nat) (node : Node Nat Session) (s' : PtrServer) :
    Prop :=
  ∃ fuel heap connList, destroyConn fuel s.heap s.connList addr = some (heap, connList) ∧
    s' = { s with
      sockets := s.sockets.close node.val.conn.sockfd
      heap := heap
      connList := connList
      conn := node.next }

theorem PtrServer.Destroys.phase {s s' : PtrServer} {addr : Nat} {node : Node Nat Session}
    (h : s.Destroys addr node s') : s'.phase = s.phase := by
  obtain ⟨_, _, _, -, rfl⟩ := h
  rfl

def PtrServer.served (s : PtrServer) (addr : Nat) (node : Node Nat Session) (c : Session)
    (sockets : Table) : PtrServer :=
  { s with
    sockets := sockets
    heap := Function.update s.heap addr (some ⟨c, node.next⟩) }

def visitStep (s : PtrServer) (ready : Int → Bool) (addr : Nat) (node : Node Nat Session)
    (v : Visit) (s' : PtrServer) : Prop :=
  match v with
  | .skip => ready node.val.conn.sockfd = false ∧ s' = { s with conn := node.next }
  | .disconnect => ready node.val.conn.sockfd = true ∧ s.Destroys addr node s'
  | .request req ret => ∃ conn sockets, ready node.val.conn.sockfd = true ∧ req.received ≠ [] ∧
    Serves node.val.conn req conn ret ∧
    Follows (socketStep node.val.id req.cmd) s.sockets req.calls sockets ∧
    if ret = -1 then
      (s.served addr node (node.val.after req.calls conn) sockets).Destroys addr
        { node with val := node.val.after req.calls conn } s'
    else s' = { s.served addr node (node.val.after req.calls conn) sockets with
      conn := node.next }

/-- `malloc` returns memory that is not in use. -/
def ptrStep (s : PtrServer) (a : PtrAction) (s' : PtrServer) : Prop :=
  match a with
  | .idle => s.phase = .waiting ∧ s' = s
  | .walk ready => s.phase = .waiting ∧
    s' = { s with phase := .walking ready, conn := s.connList }
  | .accept ready fd garbage addr =>
    s.phase = .waiting ∧ 0 ≤ fd ∧ s.sockets fd = none ∧ s.heap addr = none ∧
      s' = s.accepted ready fd garbage addr
  | .visit addr v => ∃ ready node, s.phase = .walking ready ∧ s.conn = some addr ∧
    s.heap addr = some node ∧ visitStep s ready addr node v s'
  | .finish => ∃ ready, s.phase = .walking ready ∧ s.conn = none ∧
    s' = { s with phase := .waiting }

def ptrStarted (listener : Int) : PtrServer where
  sockets := fun fd => if fd = listener then some .listener else none
  listener := listener
  phase := .waiting
  heap := fun _ => none
  connList := none
  conn := none
  next := 0

def PtrAction.erase : PtrAction → Action
  | idle => .idle
  | walk ready => .walk ready
  | accept ready fd garbage _ => .accept ready fd garbage
  | visit _ .skip => .skip
  | visit _ .disconnect => .disconnect
  | visit _ (.request req _) => .request req
  | finish => .finish

/-- The nodes in memory are those of the server without addresses: `passed` before the walk's
pointer, `left` from it on. -/
structure Represents (s : PtrServer) (t : Server) (passed left : List (Nat × Session)) : Prop where
  sockets : s.sockets = t.sockets
  listener : s.listener = t.listener
  phase : s.phase = t.phase
  next : s.next = t.next
  list : Chain s.heap s.connList (passed ++ left)
  conn : s.phase ≠ .waiting → Chain s.heap s.conn left
  waiting : s.phase = .waiting → passed = []
  walked : passed.map Prod.snd = t.walked.reverse
  ahead : left.map Prod.snd = t.ahead

theorem represents_started (listener : Int) :
    Represents (ptrStarted listener) (started listener) [] [] where
  sockets := rfl
  listener := rfl
  phase := rfl
  next := rfl
  list := rfl
  conn := fun h => absurd rfl h
  waiting := fun _ => rfl
  walked := rfl
  ahead := rfl

section Walk
variable {s s' : PtrServer} {t : Server} {passed rest : List (Nat × Session)} {addr : Nat}
  {node : Node Nat Session}

theorem Represents.current {left : List (Nat × Session)} (h : Represents s t passed left)
    (hphase : s.phase ≠ .waiting) (hconn : s.conn = some addr) (hnode : s.heap addr = some node) :
    ∃ rest, left = (addr, node.val) :: rest ∧ t.ahead = node.val :: rest.map Prod.snd := by
  have hchain := h.conn hphase
  cases left with
  | nil =>
    rw [hconn] at hchain
    cases hchain
  | cons n rest =>
    obtain ⟨b, v⟩ := n
    obtain ⟨hb, next, hnode', -⟩ := hchain
    obtain rfl : b = addr := Option.some.inj (hb.symm.trans hconn)
    obtain rfl : node = ⟨v, next⟩ := Option.some.inj (hnode.symm.trans hnode')
    exact ⟨rest, rfl, h.ahead.symm⟩

theorem Represents.saved (h : Represents s t passed ((addr, node.val) :: rest))
    (hnode : s.heap addr = some node) : Chain s.heap node.next rest := by
  obtain ⟨r, -, -, next, hnode', hrest⟩ := segment_append.mp h.list
  have hnext : node.next = next :=
    congrArg Node.next (Option.some.inj (hnode.symm.trans hnode'))
  rw [hnext]
  exact hrest

theorem Represents.accept {left : List (Nat × Session)} (h : Represents s t [] left)
    (hfree : s.heap addr = none) (ready : Int → Bool) (fd : Int) (garbage : Conn) :
    Represents (s.accepted ready fd garbage addr) (t.accepted ready fd garbage) []
      ((addr, ⟨s.next, newConn garbage fd, false⟩) :: left) := by
  have hlist : Chain s.heap s.connList left := h.list
  have hpushed := hlist.push hfree ⟨s.next, newConn garbage fd, false⟩
  exact {
    sockets := by simp [PtrServer.accepted, Server.accepted, h.sockets, h.next]
    listener := h.listener
    phase := rfl
    next := by simp [PtrServer.accepted, Server.accepted, h.next]
    list := hpushed
    conn := fun _ => hpushed
    waiting := fun _ => rfl
    walked := h.walked
    ahead := by simp [Server.accepted, h.ahead, h.next] }

theorem Represents.pass (h : Represents s t passed ((addr, node.val) :: rest))
    (hnode : s.heap addr = some node) (hphase : s.phase ≠ .waiting) :
    Represents { s with conn := node.next } (t.pass node.val (rest.map Prod.snd))
      (passed ++ [(addr, node.val)]) rest where
  sockets := h.sockets
  listener := h.listener
  phase := h.phase
  next := h.next
  list := by simpa using h.list
  conn := fun _ => h.saved hnode
  waiting := fun hwaiting => absurd hwaiting hphase
  walked := by simp [h.walked, Server.pass]
  ahead := rfl

theorem Represents.served (h : Represents s t passed ((addr, node.val) :: rest))
    (hnode : s.heap addr = some node) (c : Session) (sockets : Table) :
    Represents (s.served addr node c sockets) (t.served c (rest.map Prod.snd) sockets) passed
      ((addr, c) :: rest) where
  sockets := rfl
  listener := h.listener
  phase := h.phase
  next := h.next
  list := Chain.set h.list hnode c
  conn := by
    intro hphase
    have hchain : Chain s.heap s.conn ([] ++ (addr, node.val) :: rest) := h.conn hphase
    exact hchain.set hnode c
  waiting := h.waiting
  walked := h.walked
  ahead := rfl

theorem Represents.destroys {c : Session} (h : Represents s t passed ((addr, c) :: rest))
    (node : Node Nat Session) : ∃ s', s.Destroys addr node s' := by
  obtain ⟨heap, connList, hends, -⟩ := destroyConn_removes h.list
  have hdestroyed := hends (passed.length + 1) (Nat.lt_succ_self _)
  exact ⟨_, passed.length + 1, heap, connList, hdestroyed, rfl⟩

theorem Represents.destroy (h : Represents s t passed ((addr, node.val) :: rest))
    (hnode : s.heap addr = some node) (hphase : s.phase ≠ .waiting)
    (hdestroys : s.Destroys addr node s') :
    Represents s' (t.destroy node.val (rest.map Prod.snd)) passed rest := by
  obtain ⟨fuel, heap, connList, hdestroyed, rfl⟩ := hdestroys
  obtain ⟨heap', connList', hends, hchain⟩ := destroyConn_removes h.list
  have hsame := hends (fuel + passed.length + 1) (by omega)
  have hle : fuel ≤ fuel + passed.length + 1 := by omega
  have hmore := destroyConn_mono hle hdestroyed
  obtain ⟨rfl, rfl⟩ : heap = heap' ∧ connList = connList' := by
    simpa using Option.some.inj (hmore.symm.trans hsame)
  have hleft : Chain heap node.next rest := by
    obtain ⟨r, -, hrest⟩ := segment_append.mp hchain
    obtain rfl : r = node.next := Chain.pointer (h.saved hnode) hrest
    exact hrest
  exact ⟨by simp [Server.destroy, h.sockets], h.listener, h.phase, h.next, hchain,
    fun _ => hleft, fun hwaiting => absurd hwaiting hphase, h.walked, rfl⟩

end Walk

def Visit.Ends : Visit → Prop
  | skip => False
  | disconnect => True
  | request _ ret => ret = -1

instance : DecidablePred Visit.Ends := fun v => by
  cases v <;> unfold Visit.Ends <;> infer_instance

def aliveAfter (alive : List Nat) : PtrAction → List Nat
  | .accept _ _ _ addr => addr :: alive
  | .visit addr v => if v.Ends then alive.erase addr else alive
  | _ => alive

theorem erase_addrs {passed rest : List (Nat × Session)} {addr : Nat} {c : Session}
    (hnodup : (addrs (passed ++ (addr, c) :: rest)).Nodup) :
    (addrs (passed ++ (addr, c) :: rest)).erase addr = addrs (passed ++ rest) := by
  rw [addrs_append, addrs_cons, List.nodup_middle, List.nodup_cons, List.mem_append,
    not_or] at hnodup
  rw [addrs_append, addrs_cons, List.erase_append_right _ hnodup.1.1, List.erase_cons_head,
    addrs_append]

theorem visitStep_skip_iff {s s' : PtrServer} {ready : Int → Bool} {addr : Nat}
    {node : Node Nat Session} {v : Visit} (h : visitStep s ready addr node v s') :
    v = .skip ↔ ready node.val.conn.sockfd = false := by
  cases v with
  | skip => simp [h.1]
  | disconnect => simp [h.1]
  | request req ret =>
    obtain ⟨_, _, hready, -⟩ := h
    simp [hready]

theorem visit_represents {s s' : PtrServer} {t : Server} {passed left : List (Nat × Session)}
    {addr : Nat} {v : Visit} (h : Represents s t passed left)
    (hstep : ptrStep s (.visit addr v) s') :
    ∃ t' passed' c rest, serverStep t (PtrAction.visit addr v).erase t' ∧
      left = (addr, c) :: rest ∧ Represents s' t' passed' rest ∧ s'.phase = s.phase ∧
      (∀ ready, s.phase = .walking ready → (v = .skip ↔ ready c.conn.sockfd = false)) ∧
      addrs (passed' ++ rest) = aliveAfter (addrs (passed ++ left)) (.visit addr v) := by
  obtain ⟨ready, node, hwalking, hconn, hnode, hvisit⟩ := hstep
  have hphase : s.phase ≠ .waiting := by simp [hwalking]
  obtain ⟨rest, rfl, hahead⟩ := h.current hphase hconn hnode
  have herase := erase_addrs h.list.nodup
  have htphase : t.phase = .walking ready := by rw [← h.phase, hwalking]
  have hskips : ∀ ready', s.phase = .walking ready' →
      (v = .skip ↔ ready' node.val.conn.sockfd = false) := by
    intro ready' hready'
    obtain rfl : ready' = ready := Phase.walking.inj (hready'.symm.trans hwalking)
    exact visitStep_skip_iff hvisit
  cases v with
  | skip =>
    obtain ⟨hready, rfl⟩ := hvisit
    refine ⟨_, _, _, rest, ⟨ready, _, _, htphase, hahead, hready, rfl⟩, rfl,
      h.pass hnode hphase, rfl, hskips, ?_⟩
    simp [aliveAfter, Visit.Ends]
  | disconnect =>
    obtain ⟨hready, hdestroys⟩ := hvisit
    refine ⟨_, _, _, rest, ⟨ready, _, _, htphase, hahead, hready, rfl⟩, rfl,
      h.destroy hnode hphase hdestroys, hdestroys.phase, hskips, ?_⟩
    have hends : Visit.disconnect.Ends := trivial
    rw [aliveAfter, if_pos hends, herase]
  | request req ret =>
    obtain ⟨conn, sockets, hready, hne, hserves, hsockets, hout⟩ := hvisit
    have hserved := h.served hnode (node.val.after req.calls conn) sockets
    have hnode' : (s.served addr node (node.val.after req.calls conn) sockets).heap addr =
        some { node with val := node.val.after req.calls conn } := Function.update_self ..
    have hsockets' : Follows (socketStep node.val.id req.cmd) t.sockets req.calls sockets := by
      rwa [← h.sockets]
    by_cases hret : ret = -1
    · rw [if_pos hret] at hout
      refine ⟨_, _, _, rest, ⟨ready, _, _, conn, ret, sockets, htphase, hahead, hready, hne,
        hserves, hsockets', by rw [if_pos hret]⟩, rfl,
        hserved.destroy hnode' hphase hout, hout.phase, hskips, ?_⟩
      have hends : (Visit.request req ret).Ends := hret
      rw [aliveAfter, if_pos hends, herase]
    · rw [if_neg hret] at hout
      subst hout
      have hpassed := @Represents.pass _ _ _ _ _ ⟨node.val.after req.calls conn, node.next⟩
        hserved hnode' hphase
      refine ⟨_, _, _, rest, ⟨ready, _, _, conn, ret, sockets, htphase, hahead, hready, hne,
        hserves, hsockets', by rw [if_neg hret]⟩, rfl, hpassed, rfl, hskips, ?_⟩
      have hends : ¬(Visit.request req ret).Ends := hret
      rw [aliveAfter, if_neg hends]
      simp

def PtrAction.Begins (ready : Int → Bool) : PtrAction → Prop
  | walk ready' | accept ready' _ _ _ => ready' = ready
  | _ => False

theorem ptrStep_represents {s s' : PtrServer} {t : Server} {passed left : List (Nat × Session)}
    {a : PtrAction} (h : Represents s t passed left) (hstep : ptrStep s a s') :
    ∃ t' passed' left', serverStep t a.erase t' ∧ Represents s' t' passed' left' ∧
      addrs (passed' ++ left') = aliveAfter (addrs (passed ++ left)) a ∧
      (∀ ready, a.Begins ready → s'.phase = .walking ready ∧ passed' = []) := by
  cases a with
  | idle =>
    obtain ⟨hphase, rfl⟩ := hstep
    exact ⟨t, passed, left, ⟨h.phase ▸ hphase, rfl⟩, h, rfl, fun _ hbegins => hbegins.elim⟩
  | walk ready =>
    obtain ⟨hphase, rfl⟩ := hstep
    obtain rfl := h.waiting hphase
    refine ⟨_, [], left, ⟨h.phase ▸ hphase, rfl⟩, { h with
      phase := rfl
      conn := fun _ => h.list
      waiting := fun _ => rfl }, rfl, ?_⟩
    rintro _ rfl
    exact ⟨rfl, rfl⟩
  | accept ready fd garbage addr =>
    obtain ⟨hphase, hpos, hfd, hfree, rfl⟩ := hstep
    obtain rfl := h.waiting hphase
    refine ⟨_, [], (addr, ⟨s.next, newConn garbage fd, false⟩) :: left,
      ⟨h.phase ▸ hphase, hpos, h.sockets ▸ hfd, rfl⟩, h.accept hfree ready fd garbage, rfl, ?_⟩
    rintro _ rfl
    exact ⟨rfl, rfl⟩
  | visit addr v =>
    obtain ⟨t', passed', c, rest, hserver, -, hrep, -, -, halive⟩ := visit_represents h hstep
    exact ⟨t', passed', rest, hserver, hrep, halive, fun _ hbegins => hbegins.elim⟩
  | finish =>
    obtain ⟨ready, hphase, hconn, rfl⟩ := hstep
    have hleft : left = [] := by
      have hchain := h.conn (by simp [hphase])
      have hend : Chain s.heap none ([] : List (Nat × Session)) := rfl
      rw [hconn] at hchain
      exact hend.unique hchain
    subst hleft
    have htphase : t.phase = .walking ready := by rw [← h.phase, hphase]
    refine ⟨_, [], passed, ⟨ready, htphase, h.ahead.symm, rfl⟩, ?_, by simp [aliveAfter],
      fun _ hbegins => hbegins.elim⟩
    exact {
      sockets := h.sockets
      listener := h.listener
      phase := rfl
      next := h.next
      list := by simpa using h.list
      conn := fun hnot => absurd rfl hnot
      waiting := fun _ => rfl
      walked := rfl
      ahead := h.walked }

/-- The server with its nodes in memory does what the server without addresses does. -/
theorem ptr_refines_server {listener : Int} {as : List PtrAction} {s : PtrServer}
    (hrun : Follows ptrStep (ptrStarted listener) as s) :
    ∃ t, Follows serverStep (started listener) (as.map PtrAction.erase) t ∧
      ∃ passed left, Represents s t passed left := by
  refine Follows.refines (fun s t => ∃ passed left, Represents s t passed left)
    PtrAction.erase ?_ hrun ⟨[], [], represents_started listener⟩
  rintro s a s' t ⟨passed, left, h⟩ hstep
  obtain ⟨t', passed', left', hserver, hrep, -⟩ := ptrStep_represents h hstep
  exact ⟨t', hserver, passed', left', hrep⟩

theorem run_alive {listener : Int} {as : List PtrAction} {s : PtrServer}
    (hrun : Follows ptrStep (ptrStarted listener) as s) :
    ∃ t passed left, Represents s t passed left ∧
      addrs (passed ++ left) = as.foldl aliveAfter [] := by
  refine Follows.simulation (fun s alive => ∃ t passed left, Represents s t passed left ∧
    addrs (passed ++ left) = alive) aliveAfter ?_ hrun
    ⟨_, [], [], represents_started listener, rfl⟩
  rintro s a s' alive ⟨t, passed, left, h, rfl⟩ hstep
  obtain ⟨t', passed', left', -, hrep, halive, -⟩ := ptrStep_represents h hstep
  exact ⟨t', passed', left', hrep, halive⟩

def PtrAction.IsVisit : PtrAction → Prop
  | visit _ _ => True
  | _ => False

/-- The node whose control connection `recv` was called on. -/
def recvd : PtrAction → Option Nat
  | .visit _ .skip => none
  | .visit addr _ => some addr
  | _ => none

theorem visits_serve {s s' : PtrServer} {t : Server} {passed left : List (Nat × Session)}
    {ready : Int → Bool} {bs : List PtrAction} (h : Represents s t passed left)
    (hphase : s.phase = .walking ready) (hvisits : ∀ b ∈ bs, b.IsVisit)
    (hrun : Follows ptrStep s bs s') :
    ∃ t' passed' done rest, left = done ++ rest ∧ Represents s' t' passed' rest ∧
      s'.phase = .walking ready ∧ bs.length = done.length ∧
      bs.filterMap recvd = addrs (done.filter fun n => ready n.2.conn.sockfd) := by
  induction bs generalizing s t passed left with
  | nil =>
    obtain rfl : s' = s := hrun
    exact ⟨t, passed, [], left, rfl, h, hphase, rfl, rfl⟩
  | cons b bs ih =>
    obtain ⟨u, hu, hrun⟩ := hrun
    cases b with
    | visit addr v =>
      obtain ⟨t', passed', c, rest, -, rfl, hrep, hsame, hskip, -⟩ := visit_represents h hu
      obtain ⟨t'', passed'', done, rest', rfl, hrep', hphase', hlen, hserved⟩ :=
        ih hrep (hsame.trans hphase) (fun b hb => hvisits b (by simp [hb])) hrun
      refine ⟨t'', passed'', (addr, c) :: done, rest', rfl, hrep', hphase', by simp [hlen], ?_⟩
      have hready := hskip ready hphase
      by_cases hv : v = .skip
      · have hnot := hready.mp hv
        subst hv
        have hrecv : recvd (.visit addr .skip) = none := rfl
        simpa [hrecv, hnot] using hserved
      · have hset : ready c.conn.sockfd = true := by
          cases hbit : ready c.conn.sockfd with
          | true => rfl
          | false => exact absurd (hready.mpr hbit) hv
        have hrecv : recvd (.visit addr v) = some addr := by
          cases v with
          | skip => exact absurd rfl hv
          | disconnect => rfl
          | request req ret => rfl
        simpa [hrecv, hset] using hserved
    | _ => exact absurd (hvisits _ List.mem_cons_self) id

/-- `destroy_conn` ends on this node, and takes it and no other out of the list. -/
def RemovesOnly (heap : Nodes) (connList : Ptr) (before after : List (Nat × Session)) (a : Nat) :
    Prop :=
  ∃ heap' connList', (∀ fuel, before.length < fuel →
    destroyConn fuel heap connList a = some (heap', connList')) ∧
    Chain heap' connList' (before ++ after)

def PtrServer.Possible (s : PtrServer) (ready : Int → Bool) (c : Session) : Visit → Prop
  | .skip => ready c.conn.sockfd = false
  | .disconnect => ready c.conn.sockfd = true
  | .request req ret => ready c.conn.sockfd = true ∧ req.received ≠ [] ∧
    ∃ conn sockets, Serves c.conn req conn ret ∧
      Follows (socketStep c.id req.cmd) s.sockets req.calls sockets

def PtrServer.GoesOn (s : PtrServer) (ready : Int → Bool) (addr : Nat) : Prop :=
  ∃ node, s.heap addr = some node ∧
    ∀ v, s.Possible ready node.val v → ∃ s', ptrStep s (.visit addr v) s'

/-- The walk from the head of the list ends, goes on until it has, and calls `recv` once for
each node that `select` reported, in the order of the list, and for no other. -/
def ServesRound (s : PtrServer) (ready : Int → Bool) : Prop :=
  ∃ nodes, Chain s.heap s.connList nodes ∧ ∀ bs s', (∀ b ∈ bs, b.IsVisit) →
    Follows ptrStep s bs s' →
      bs.length ≤ nodes.length ∧
      (∀ addr, s'.conn = some addr → s'.GoesOn ready addr) ∧
      (s'.conn = none →
        bs.filterMap recvd = addrs (nodes.filter fun n => ready n.2.conn.sockfd))

theorem walk_goes_on {s : PtrServer} {t : Server} {passed left : List (Nat × Session)}
    {ready : Int → Bool} {addr : Nat} (h : Represents s t passed left)
    (hphase : s.phase = .walking ready) (hconn : s.conn = some addr) : s.GoesOn ready addr := by
  have hchain := h.conn (by simp [hphase])
  cases left with
  | nil =>
    rw [hconn] at hchain
    cases hchain
  | cons n rest =>
    obtain ⟨b, c⟩ := n
    obtain ⟨hb, next, hnode, -⟩ := hchain
    obtain rfl : b = addr := Option.some.inj (hb.symm.trans hconn)
    refine ⟨⟨c, next⟩, hnode, ?_⟩
    intro v hv
    cases v with
    | skip => exact ⟨_, ready, _, hphase, hconn, hnode, hv, rfl⟩
    | disconnect =>
      obtain ⟨gone, hgone⟩ := h.destroys ⟨c, next⟩
      exact ⟨gone, ready, _, hphase, hconn, hnode, hv, hgone⟩
    | request req ret =>
      obtain ⟨hready, hne, conn, sockets, hserves, hsockets⟩ := hv
      have hserved := @Represents.served _ _ _ _ _ ⟨c, next⟩ h hnode (c.after req.calls conn)
        sockets
      obtain ⟨gone, hgone⟩ := hserved.destroys ⟨c.after req.calls conn, next⟩
      by_cases hret : ret = -1
      · refine ⟨gone, ready, _, hphase, hconn, hnode, conn, sockets, hready, hne, hserves,
          hsockets, ?_⟩
        rwa [if_pos hret]
      · refine ⟨{ s.served b ⟨c, next⟩ (c.after req.calls conn) sockets with conn := next },
          ready, _, hphase, hconn, hnode, conn, sockets, hready, hne, hserves, hsockets, ?_⟩
        rw [if_neg hret]

theorem represents_servesRound {s : PtrServer} {t : Server} {nodes : List (Nat × Session)}
    {ready : Int → Bool} (h : Represents s t [] nodes) (hphase : s.phase = .walking ready) :
    ServesRound s ready := by
  refine ⟨nodes, h.list, ?_⟩
  intro bs s' hvisits hrun
  obtain ⟨t', passed, done, rest, rfl, hrep, hphase', hlen, hserved⟩ :=
    visits_serve h hphase hvisits hrun
  refine ⟨by rw [hlen, List.length_append]; omega, fun addr => walk_goes_on hrep hphase', ?_⟩
  intro hend
  have hchain := hrep.conn (by simp [hphase'])
  have hnil : Chain s'.heap none ([] : List (Nat × Session)) := rfl
  rw [hend] at hchain
  obtain rfl := hnil.unique hchain
  simpa using hserved

/-- `conn_list` leads through the nodes accepted and not destroyed, without repeating one;
`destroy_conn` takes out the node it is called on; and every walk serves its round. -/
theorem conn_list_integrity {listener : Int} {as : List PtrAction} {s : PtrServer}
    (hrun : Follows ptrStep (ptrStarted listener) as s) :
    ∃ nodes, Chain s.heap s.connList nodes ∧ (addrs nodes).Nodup ∧
      addrs nodes = as.foldl aliveAfter [] ∧
      (∀ before a v after, nodes = before ++ (a, v) :: after →
        RemovesOnly s.heap s.connList before after a) ∧
      ∀ a ready s', a.Begins ready → ptrStep s a s' → ServesRound s' ready := by
  obtain ⟨t, passed, left, h, halive⟩ := run_alive hrun
  refine ⟨passed ++ left, h.list, h.list.nodup, halive, ?_, ?_⟩
  · intro before a v after hnodes
    apply destroyConn_removes
    rw [← hnodes]
    exact h.list
  · intro a ready s' hbegins hstep
    obtain ⟨t', passed', left', -, hrep, -, hbegun⟩ := ptrStep_represents h hstep
    obtain ⟨hphase, rfl⟩ := hbegun ready hbegins
    exact represents_servesRound hrep hphase

theorem follows_two_nodes : ∃ s, Follows ptrStep (ptrStarted 0)
    [.accept (fun _ => false) 1 justAccepted 8, .visit 8 .skip, .finish,
      .accept (fun _ => true) 2 justAccepted 9, .visit 9 .disconnect] s ∧
    s.conn = some 8 := by
  refine ⟨_, ⟨_, ⟨rfl, by decide, rfl, rfl, rfl⟩, _, ⟨_, _, rfl, rfl, rfl, rfl, rfl⟩,
    _, ⟨_, rfl, rfl, rfl⟩, _, ⟨rfl, by decide, rfl, rfl, rfl⟩,
    _, ⟨_, _, rfl, rfl, rfl, rfl, 1, _, _, rfl, rfl⟩, rfl⟩, rfl⟩

theorem conn_list_integrity_first_gone : ∃ (s : PtrServer) (nodes : List (Nat × Session)),
    Chain s.heap s.connList nodes ∧ addrs nodes = [8] ∧ s.conn = some 8 := by
  obtain ⟨s, hs, hconn⟩ := follows_two_nodes
  obtain ⟨nodes, hchain, -, halive, -⟩ := conn_list_integrity hs
  exact ⟨s, nodes, hchain, halive.trans (by decide), hconn⟩

end FtpServer

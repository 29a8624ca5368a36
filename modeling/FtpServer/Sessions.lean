import FtpServer.Effects
import FtpServer.Library.Transition

/-! A session as a run of requests. What is received and what `ftp_buf` holds behind
it are left open, and so are the answers of every call. -/

namespace FtpServer
open Interaction CString Transition

/-- What `recv` put into `ftp_buf`, what stands behind the terminator, and the calls made
while it was served. -/
structure Request where
  received : Bytes
  stale : Bytes
  calls : List CallEvent
  fits : received.length < ftpBufferSize

def Request.buf (req : Request) : Bytes := req.received ++ 0 :: req.stale

def Request.cmd (req : Request) : Cmd := (parseRequest req.buf).1

def Request.parameter (req : Request) : Option Bytes := (parseRequest req.buf).2

/-- The four commands that use the data connection. -/
def Transfers : Cmd → Prop
  | .list | .nlst | .retr | .stor => True
  | _ => False

/-- `ftp_process_request` returns, with this session and this result. -/
def Serves (conn : Conn) (req : Request) (conn' : Conn) (ret : Int) : Prop :=
  ∃ fuel, Runs (ftpProcessRequest fuel conn req.buf) req.calls (.ok (conn', ret))

def sessionStep (conn : Conn) (req : Request) (conn' : Conn) : Prop :=
  ∃ ret, ret ≠ -1 ∧ Serves conn req conn' ret

/-- `ftp_process_request` with the command and the argument that it hands to its switch. -/
def dispatching (fuel : Nat) (conn : Conn) (buf : Bytes) :
    Ftp (Option (Cmd × Option Bytes) × Conn × Int) := do
  let sbuf ← malloc
  if sbuf = true then do
    let (cmd, parameter) := parseRequest buf
    let done ← dispatch fuel conn (stripLineEnds buf) cmd parameter
    pure (some (cmd, parameter), done)
  else pure (none, conn, -1)

/-- `ftp_process_request` returns with this session and result, having dispatched `pair`. -/
def Dispatches (conn : Conn) (req : Request) (pair : Option (Cmd × Option Bytes)) (conn' : Conn)
    (ret : Int) : Prop :=
  ∃ fuel, Runs (dispatching fuel conn req.buf) req.calls (.ok (pair, conn', ret))

/-- One request of a session, with what was dispatched for it; -1 ends the session. -/
def servedStep (s : Option Conn) (e : Request × Option (Cmd × Option Bytes))
    (s' : Option Conn) : Prop :=
  ∃ conn conn' ret, s = some conn ∧ Dispatches conn e.1 e.2 conn' ret ∧
    s' = if ret = -1 then none else some conn'

def dispatched (es : List (Request × Option (Cmd × Option Bytes))) : List (Cmd × Option Bytes) :=
  es.filterMap Prod.snd

/-- `malloc` gave the request its buffer. -/
def Request.Allocated (req : Request) : Prop := req.calls.head? = some ⟨.malloc, true⟩

/-- The fields `accept` sets; the others are what `malloc` left in the node. -/
def Accepted (conn : Conn) : Prop := conn.currentdir = ftpSrvRoot ∧ conn.offset = 0

def Reachable (conn : Conn) : Prop :=
  ∃ conn₀ reqs, Accepted conn₀ ∧ Follows sessionStep conn₀ reqs conn

theorem request_cases {fuel : Nat} {conn : Conn} {buf : Bytes} {t : List CallEvent}
    {r : Except Fault (Conn × Int)} (hrun : Runs (ftpProcessRequest fuel conn buf) t r) :
    (t = [⟨.malloc, false⟩] ∧ r = .ok (conn, -1)) ∨
    ∃ t', t = ⟨.malloc, true⟩ :: t' ∧
      Runs (dispatch fuel conn (stripLineEnds buf) (parseRequest buf).1 (parseRequest buf).2)
        t' r := by
  obtain ⟨sbuf, t', rfl, hrest⟩ := hrun
  cases sbuf with
  | false =>
    obtain ⟨rfl, rfl⟩ : t' = [] ∧ r = .ok (conn, -1) := hrest
    exact .inl ⟨rfl, rfl⟩
  | true => exact .inr ⟨t', rfl, hrest⟩

theorem serves_cases {conn conn' : Conn} {req : Request} {ret : Int}
    (h : Serves conn req conn' ret) :
    (req.calls = [⟨.malloc, false⟩] ∧ conn' = conn ∧ ret = -1) ∨
    (∃ fuel t, req.calls = ⟨.malloc, true⟩ :: t ∧
      Runs (dispatch fuel conn (stripLineEnds req.buf) req.cmd req.parameter) t
        (.ok (conn', ret))) := by
  obtain ⟨fuel, hrun⟩ := h
  rcases request_cases hrun with ⟨hcalls, hret⟩ | hdone
  · refine .inl ⟨hcalls, ?_⟩
    simpa using hret
  · exact .inr ⟨fuel, hdone⟩

theorem dispatches_iff {conn conn' : Conn} {req : Request} {pair : Option (Cmd × Option Bytes)}
    {ret : Int} :
    Dispatches conn req pair conn' ret ↔
      (req.calls = [⟨.malloc, false⟩] ∧ pair = none ∧ conn' = conn ∧ ret = -1) ∨
      ∃ fuel t, req.calls = ⟨.malloc, true⟩ :: t ∧ pair = some (req.cmd, req.parameter) ∧
        Runs (dispatch fuel conn (stripLineEnds req.buf) req.cmd req.parameter) t
          (.ok (conn', ret)) := by
  constructor
  · rintro ⟨fuel, sbuf, t, hcalls, hrest⟩
    cases sbuf with
    | false =>
      obtain ⟨rfl, hret⟩ : t = [] ∧ Except.ok (pair, conn', ret) = .ok (none, conn, -1) := hrest
      simp only [Except.ok.injEq, Prod.mk.injEq] at hret
      exact .inl ⟨hcalls, hret⟩
    | true =>
      obtain ⟨done, hpair, hrun⟩ := (runs_bind_pure _ _ _ _).mp hrest
      cases hpair
      exact .inr ⟨fuel, t, hcalls, rfl, hrun⟩
  · rintro (⟨hcalls, rfl, rfl, rfl⟩ | ⟨fuel, t, hcalls, rfl, hrun⟩)
    · exact ⟨0, false, [], hcalls, rfl, rfl⟩
    · refine ⟨fuel, true, t, hcalls, ?_⟩
      exact (runs_bind_pure _ _ _ _).mpr ⟨(conn', ret), rfl, hrun⟩

/-- What is dispatched is only written down: the runs are those of `ftp_process_request`. -/
theorem serves_iff_dispatches {conn conn' : Conn} {req : Request} {ret : Int} :
    Serves conn req conn' ret ↔ ∃ pair, Dispatches conn req pair conn' ret := by
  simp only [dispatches_iff]
  constructor
  · intro h
    rcases serves_cases h with ⟨hcalls, hconn, hret⟩ | ⟨fuel, t, hcalls, hrun⟩
    · exact ⟨none, .inl ⟨hcalls, rfl, hconn, hret⟩⟩
    · exact ⟨_, .inr ⟨fuel, t, hcalls, rfl, hrun⟩⟩
  · rintro ⟨pair, ⟨hcalls, -, rfl, rfl⟩ | ⟨fuel, t, hcalls, -, hrun⟩⟩
    · exact ⟨0, false, [], hcalls, rfl, rfl⟩
    · exact ⟨fuel, true, t, hcalls, hrun⟩

theorem Dispatches.pair {conn conn' : Conn} {req : Request} {pair : Option (Cmd × Option Bytes)}
    {ret : Int} (h : Dispatches conn req pair conn' ret) (halloc : req.Allocated) :
    pair = some (req.cmd, req.parameter) := by
  rcases dispatches_iff.mp h with ⟨hcalls, -⟩ | ⟨-, -, -, hpair, -⟩
  · rw [Request.Allocated, hcalls] at halloc
    cases halloc
  · exact hpair

theorem serves_effect {conn conn' : Conn} {req : Request} {ret : Int}
    (h : Serves conn req conn' ret) :
    (ret = -1 ∧ conn' = conn ∧ handedPaths req.calls = []) ∨
    Effect conn req.cmd req.parameter req.calls conn' := by
  cases serves_cases h with
  | inl hfailed =>
    obtain ⟨hcalls, hconn, hret⟩ := hfailed
    exact .inl ⟨hret, hconn, by simp [hcalls]⟩
  | inr hdone =>
    obtain ⟨fuel, t, hcalls, hrun⟩ := hdone
    have heffect := dispatch_effect fuel conn _ req.cmd req.parameter t _ hrun conn' ret rfl
    refine .inr ⟨heffect.sockfd, heffect.remote, heffect.currentdir, heffect.offset,
      heffect.built, ?_⟩
    simpa [hcalls] using heffect.paths

theorem Serves.sockfd {conn conn' : Conn} {req : Request} {ret : Int}
    (h : Serves conn req conn' ret) : conn'.sockfd = conn.sockfd := by
  rcases serves_effect h with ⟨-, rfl, -⟩ | heffect
  · rfl
  · exact heffect.sockfd

theorem sessionStep_effect {conn conn' : Conn} {req : Request} (h : sessionStep conn req conn') :
    Effect conn req.cmd req.parameter req.calls conn' := by
  obtain ⟨ret, hret, hserves⟩ := h
  exact (serves_effect hserves).resolve_left (fun hfailed => hret hfailed.1)

theorem serves_of_replay {conn conn' : Conn} {req : Request} {ret : Int} (fuel : Nat)
    (h : replay (ftpProcessRequest fuel conn req.buf) req.calls = some (.ok (conn', ret))) :
    Serves conn req conn' ret :=
  ⟨fuel, runs_of_replay h⟩

/-- A session as `accept` leaves it when the node held zeros. -/
def justAccepted : Conn where
  sockfd := 1
  remote := 0
  status := .anonStat
  pasvActive := 0
  pasvSockfd := 0
  pasvPort := 0
  offset := 0
  currentdir := ftpSrvRoot

theorem accepted_justAccepted : Accepted justAccepted := ⟨rfl, rfl⟩

def quitting : Request where
  received := bytes "QUIT\r\n"
  stale := []
  calls := [⟨.malloc, true⟩, ⟨.reply .sockfd 1 Reply.adios.text, 12⟩]
  fits := by decide

end FtpServer

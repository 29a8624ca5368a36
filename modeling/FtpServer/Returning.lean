import FtpServer.Lines

/-! PWD and CWD: the path that PWD shows leads back, as long as every directory
stored is absolute and its reply is stored in full. -/

namespace FtpServer
open Interaction CString Components Transition

/-- The path in a PWD reply that `vsnprintf` stored in full. -/
def Shows (pwd : Request) (conn : Conn) (path : Bytes) : Prop :=
  ∃ (text : Bytes) (sent : Int),
    (⟨.reply .sockfd conn.sockfd text, sent⟩ : CallEvent) ∈ pwd.calls ∧
    storedReply text = (Reply.currentDirectory path).text

/-- Sent as the argument of CWD, the path leads to the directory `stack`. -/
def LeadsTo (path : Bytes) (stack : List Bytes) (other : Conn) : Prop :=
  ∀ fuel stale, Always (serveReceived fuel other (bytes "CWD " ++ path ++ crlf) stale)
    (fun t r => t = [⟨.malloc, false⟩] ∨
      ∃ other', r = .ok (other', 0) ∧ comps slash other'.currentdir = stack)

def PwdInverts (conn : Conn) : Prop :=
  ∀ (pwd : Request) (conn' : Conn) (ret : Int), pwd.cmd = .pwd → ret ≠ -1 →
    Serves conn pwd conn' ret →
    ∃ path, Shows pwd conn path ∧ path[0]? = some slash ∧
      ∀ other, Reachable other → LeadsTo path (comps slash conn.currentdir) other

/-- A directory text that PWD shows in full and CWD takes back. -/
structure Showable (dir : Bytes) : Prop where
  absolute : dir[0]? = some slash
  short : dir.length ≤ 225
  clean : Clean dir

theorem Showable.doStepDown {dir : Bytes} (h : Showable dir) :
    Showable (FtpServer.doStepDown dir) where
  absolute := doStepDown_absolute h.absolute
  short := by
    have hlen := doStepDown_length_le dir
    have hshort := h.short
    omega
  clean := h.clean.doStepDown

theorem fullPath_keeps_absolute {dir path : Bytes} (hd : dir[0]? = some slash)
    (hroot : dir = ftpSrvRoot → path[0]? = some slash) :
    (fullPath dir path).2[0]? = some slash := by
  by_cases habs : path[0]? = some slash
  · rw [fullPath_absolute habs, habs]
  have hnot : dir ≠ ftpSrvRoot := fun h => habs (hroot h)
  by_cases hdots : path[0]? = some dot ∧ path[1]? = some dot
  · rw [fullPath_dots hnot hdots, doStepDown_absolute hd]
  · rw [fullPath_below habs hnot hdots]
    cases dir with
    | nil => simp at hd
    | cons b dir => simpa using hd

/-- CWD has an absolute argument when it is sent from "/", and the 257 reply for the
directory it leads to fits the reply buffer. -/
def KeepsShowable (conn : Conn) (req : Request) : Prop :=
  req.cmd = .cwd → ∀ path, req.parameter = some path →
    (conn.currentdir = ftpSrvRoot → path[0]? = some slash) ∧
    (fullPath conn.currentdir path).2.length ≤ 225

theorem Showable.step {conn conn' : Conn} {req : Request} (h : Showable conn.currentdir)
    (hcond : KeepsShowable conn req) (hstep : sessionStep conn req conn') :
    Showable conn'.currentdir := by
  rw [(sessionStep_effect hstep).currentdir]
  rcases nextDir_cases conn.currentdir req.cmd req.parameter with
    hdir | hdir | ⟨hlen, hdir⟩ | ⟨path, hcmd, hpath, hdir⟩ <;> rw [hdir]
  · exact h
  · exact h.doStepDown
  · refine ⟨?_, ?_, h.clean.take _⟩
    · rw [List.getElem?_take_of_lt (by omega), h.absolute]
    · have hshort := h.short
      rw [List.length_take]
      omega
  · have hfits := hcond hcmd path hpath
    exact ⟨fullPath_keeps_absolute h.absolute hfits.1, hfits.2,
      (h.clean.fullPath (clean_argument hpath)).2⟩

theorem serves_pwd {conn conn' : Conn} {pwd : Request} {ret : Int} (hcmd : pwd.cmd = .pwd)
    (hret : ret ≠ -1) (h : Serves conn pwd conn' ret) :
    ∃ sent : Int, pwd.calls = [⟨.malloc, true⟩,
      ⟨.reply .sockfd conn.sockfd (Reply.currentDirectory conn.currentdir).text, sent⟩] := by
  cases serves_cases h with
  | inl hfailed => exact absurd hfailed.2.2 hret
  | inr hdone =>
    obtain ⟨fuel, t, hcalls, hrun⟩ := hdone
    rw [hcmd] at hrun
    have hpwd : Always (cmdPwd conn) (fun t _ => ∃ sent : Int, t =
        [⟨.reply .sockfd conn.sockfd (Reply.currentDirectory conn.currentdir).text, sent⟩]) := by
      simp [cmdPwd]
    obtain ⟨sent, ht⟩ := hpwd t _ hrun
    exact ⟨sent, by rw [hcalls, ht]⟩

theorem linePair_cwd (path : Bytes) : linePair (bytes "CWD " ++ path) = (.cwd, some path) := rfl

theorem leadsTo_absolute {path : Bytes} (h : Showable path) (other : Conn) :
    LeadsTo path (comps slash path) other := by
  intro fuel stale
  have hlen := h.short
  have hverb : (bytes "CWD ").length = 4 ∧ crlf.length = 2 := by decide
  have hclean : Clean (bytes "CWD " ++ path) := Clean.append (by decide) h.clean
  have hreceived : (bytes "CWD " ++ path ++ crlf).length < ftpBufferSize := by
    rw [List.length_append, List.length_append, hverb.1, hverb.2, ftpBufferSize]
    omega
  have hline : lineOf (bytes "CWD " ++ path ++ crlf ++ 0 :: stale) = bytes "CWD " ++ path := by
    rw [List.append_assoc, lineOf_append hclean, crlf]
    simp [lineOf, InLine, bytes, byte]
  have hparse : parseRequest (bytes "CWD " ++ path ++ crlf ++ 0 :: stale) = (.cwd, some path) := by
    rw [parseRequest_eq, hline, linePair_cwd]
  have hfull : fullPath other.currentdir path = (other.currentdir, path) :=
    fullPath_absolute h.absolute
  have hfits : path.length < 256 ∧ path.length < 512 := by omega
  have hnot : ¬512 ≤ path.length ∧ ¬256 ≤ path.length := by omega
  rw [always_serveReceived, always_ftpProcessRequest, hparse]
  refine ⟨fun _ => ⟨?_, .inl rfl⟩, fun h => absurd h (not_le.mpr hreceived)⟩
  simp [dispatch, cmdCwd, hfull, hfits, hnot, Buffer.size]

theorem storedReply_pwd {dir : Bytes} (h : dir.length ≤ 225) :
    storedReply (Reply.currentDirectory dir).text = (Reply.currentDirectory dir).text := by
  have hends : (bytes "257 \"").length = 5 ∧
      (bytes "\" is current directory.\r\n").length = 25 := by decide
  apply List.take_of_length_le
  simp only [Reply.text, List.length_append, hends.1, hends.2]
  omega

theorem Showable.pwdInverts {conn : Conn} (h : Showable conn.currentdir) : PwdInverts conn := by
  intro pwd conn' ret hcmd hret hserves
  obtain ⟨sent, hcalls⟩ := serves_pwd hcmd hret hserves
  refine ⟨conn.currentdir, ⟨_, sent, ?_, storedReply_pwd h.short⟩, h.absolute, ?_⟩
  · simp [hcalls]
  · intro other _
    exact leadsTo_absolute h other

/-- In every state of a run whose steps keep the directory showable, PWD and CWD are
inverse. -/
theorem pwd_inverts_cwd {conn₀ conn : Conn} {reqs : List Request} (hstart : Accepted conn₀)
    (hrun : Follows (Where KeepsShowable sessionStep) conn₀ reqs conn) : PwdInverts conn := by
  have hfirst : Showable conn₀.currentdir := by
    rw [hstart.1, ftpSrvRoot, bytes_root]
    exact ⟨rfl, by simp, clean_root⟩
  apply Showable.pwdInverts
  apply Follows.invariant (fun conn => Showable conn.currentdir) _ hrun hfirst
  intro conn req conn' h hstep
  exact h.step hstep.1 hstep.2

def cwdRelative : Request where
  received := bytes "CWD a\r\n"
  stale := []
  calls := [⟨.malloc, true⟩, ⟨.reply .sockfd 1 (Reply.changedTo (bytes "a")).text, 30⟩]
  fits := by decide

def pwdRelative : Request where
  received := bytes "PWD\r\n"
  stale := []
  calls := [⟨.malloc, true⟩,
    ⟨.reply .sockfd 1 (Reply.currentDirectory (bytes "a")).text, 31⟩]
  fits := by decide

theorem pwd_shows_relative : ¬∀ conn, Reachable conn → PwdInverts conn := by
  intro h
  have hrun : Follows sessionStep justAccepted [cwdRelative]
      { justAccepted with currentdir := bytes "a" } :=
    ⟨_, ⟨0, by decide, serves_of_replay 0 rfl⟩, rfl⟩
  obtain ⟨path, hshows, habs, -⟩ := h _ ⟨_, _, accepted_justAccepted, hrun⟩ pwdRelative _ 0
    rfl (by decide) (serves_of_replay 0 rfl)
  obtain ⟨text, sent, hmem, hstored⟩ := hshows
  have htext : text = (Reply.currentDirectory (bytes "a")).text := by
    simp only [pwdRelative, justAccepted, List.mem_cons, List.not_mem_nil, or_false,
      Event.mk.injEq, Call.reply.injEq, reduceCtorEq, false_and, false_or] at hmem
    exact hmem.1.2.2
  have hshown : (Reply.currentDirectory (bytes "a")).text = (Reply.currentDirectory path).text := by
    rw [← hstored, htext]
    rfl
  have hpath : bytes "a" = path := List.append_cancel_left (List.append_cancel_right hshown)
  rw [← hpath] at habs
  exact absurd habs (by decide)

def cwdAbsolute : Request where
  received := bytes "CWD /a\r\n"
  stale := []
  calls := [⟨.malloc, true⟩, ⟨.reply .sockfd 1 (Reply.changedTo (bytes "/a")).text, 31⟩]
  fits := by decide

theorem pwd_inverts_cwd_absolute :
    PwdInverts { justAccepted with currentdir := bytes "/a" } := by
  have hkeeps : KeepsShowable justAccepted cwdAbsolute := by
    intro _ path hpath
    have harg : bytes "/a" = path := Option.some.inj hpath
    subst harg
    exact ⟨fun _ => rfl, by decide⟩
  have hrun : Follows (Where KeepsShowable sessionStep) justAccepted [cwdAbsolute]
      { justAccepted with currentdir := bytes "/a" } :=
    ⟨_, ⟨hkeeps, 0, by decide, serves_of_replay 0 rfl⟩, rfl⟩
  exact pwd_inverts_cwd accepted_justAccepted hrun

end FtpServer

import FtpServer.Lines

/-! What a client can put into the replies: whatever it sends, no reply but its own line end
holds a CR or an LF. -/

namespace FtpServer
open Interaction CString Transition

@[simp] theorem clean_append (s r : Bytes) : Clean (s ++ r) ↔ Clean s ∧ Clean r := by
  simp only [Clean, List.mem_append, or_imp, forall_and]

theorem clean_showNat (n : Nat) : Clean (showNat n) := by
  unfold showNat
  split
  · decide
  · intro b hb
    obtain ⟨d, hd, rfl⟩ := List.mem_map.mp hb
    have hdigit : d < 10 := Nat.digits_lt_base (by decide) (List.mem_reverse.mp hd)
    interval_cases d <;> decide

theorem clean_showInt (i : Int) : Clean (showInt i) := by
  cases i with
  | ofNat n => exact clean_showNat n
  | negSucc n =>
    have hminus : Clean [byte '-'] := by decide
    exact hminus.append (clean_showNat (n + 1))

def OneLine (text : Bytes) : Prop :=
  text.count (byte '\r') = 1 ∧ text.count (byte '\n') = 1 ∧ crlf <:+ text

instance (text : Bytes) : Decidable (OneLine text) := inferInstanceAs (Decidable (_ ∧ _))

theorem OneLine.prepend {s text : Bytes} (hs : Clean s) (h : OneLine text) :
    OneLine (s ++ text) := by
  obtain ⟨hcr, hlf, hend⟩ := h
  have hnocr : s.count (byte '\r') = 0 := List.count_eq_zero.mpr fun hmem => (hs _ hmem).2.1 rfl
  have hnolf : s.count (byte '\n') = 0 := List.count_eq_zero.mpr fun hmem => (hs _ hmem).2.2 rfl
  refine ⟨?_, ?_, hend.trans (List.suffix_append s text)⟩
  · rw [List.count_append, hnocr, hcr]
  · rw [List.count_append, hnolf, hlf]

theorem oneLine_echo {pre s post : Bytes} (hpre : Clean pre) (hs : Clean s)
    (hpost : OneLine post) : OneLine (pre ++ s ++ post) :=
  OneLine.prepend (hpre.append hs) hpost

@[simp, reducible] def Reply.CleanEcho : Reply → Prop
  | openingPartial s _ _ | openingWhole s _ | openingUpload s | passwordRequired s | notRegular s
  | cannotWrite s | currentDirectory s | changedTo s | dirCreated s | fileExists s
  | fileDeleted s | noSuchFile s | dirDeleted s | noSuchDir s => Clean s
  | _ => True

theorem oneLine_text {reply : Reply} (h : reply.CleanEcho) : OneLine reply.text := by
  cases reply with
  | openingUpload s | passwordRequired s | notRegular s | cannotWrite s | currentDirectory s
  | changedTo s | dirCreated s | fileExists s | fileDeleted s | noSuchFile s | dirDeleted s
  | noSuchDir s => exact oneLine_echo (by decide) h (by decide)
  | sizeIs numBytes => exact oneLine_echo (by decide) (clean_showInt numBytes) (by decide)
  | openingWhole s total =>
    refine oneLine_echo ?_ (clean_showInt total) (by decide)
    rw [clean_append, clean_append]
    exact ⟨⟨by decide, h⟩, by decide⟩
  | openingPartial s rest total =>
    refine oneLine_echo ?_ (clean_showInt total) (by decide)
    simp only [clean_append]
    exact ⟨⟨⟨⟨by decide, h⟩, by decide⟩, clean_showInt rest⟩, by decide⟩
  | enteringPassive addr port =>
    refine oneLine_echo ?_ (clean_showNat _) (by decide)
    have hcomma : Clean (bytes ",") := by decide
    simp only [clean_append, clean_showNat, hcomma, and_true]
    decide
  | _ => decide

/-- A reply on the control connection that a client could take for something else. -/
@[simp] def SplitReply : CallEvent → Prop
  | ⟨.reply .sockfd _ text, _⟩ => ¬OneLine text
  | _ => False

section Loops

@[simp] theorem split_listTrace (line : FilInfo → Bytes) (sock : Int)
    (entries : List (FilInfo × Int)) (last : FResult × FilInfo) :
    ¬Occurs SplitReply (listTrace line .pasvSockfd sock entries last) := by
  rw [not_occurs, forall_mem_listTrace]
  simp

@[simp] theorem split_retrTrace (sock : Int) (blocks : List ReadBlock) (last : FResult) :
    ¬Occurs SplitReply (retrTrace sock blocks last) := by
  rw [not_occurs, forall_mem_retrTrace]
  simp

@[simp] theorem split_storTrace (conn : Conn) (blocks : List WriteBlock) (last : StorEnd) :
    ¬Occurs SplitReply (storTrace conn blocks last) := by
  rw [not_occurs, forall_mem_storTrace]
  cases last <;> simp [storTrace, oneLine_text]

end Loops

theorem dispatch_oneLine {conn : Conn} {parameter : Option Bytes} (hdir : Clean conn.currentdir)
    (harg : ∀ s, parameter = some s → Clean s) (fuel : Nat) (buf : Bytes) (cmd : Cmd) :
    Always (dispatch fuel conn buf cmd parameter) (fun t _ => ¬Occurs SplitReply t) := by
  have hpath : ∀ s, parameter = some s → Clean (fullPath conn.currentdir s).2 :=
    fun s hs => (hdir.fullPath (harg s hs)).2
  cases cmd with
  | port =>
    refine always_cmdPort conn parameter ?_ ?_ ?_
    · simp
    · simp
    · simp [portConnect, portConnected, oneLine_text]
  | user => cases parameter <;> simp [dispatch, cmdUser, oneLine_text, harg]
  | type => cases parameter <;> simp [dispatch, cmdType, oneLine_text]
  | rest => cases parameter <;> simp [dispatch, cmdRest, oneLine_text]
  | cwd => cases parameter <;> simp [dispatch, cmdCwd, oneLine_text, hpath]
  | retr => cases parameter <;> simp [dispatch, cmdRetr, retrSeek, oneLine_text, hpath]
  | stor => cases parameter <;> simp [dispatch, cmdStor, oneLine_text, hpath]
  | size => cases parameter <;> simp [dispatch, cmdSize, oneLine_text, hpath]
  | mkd => cases parameter <;> simp [dispatch, cmdMkd, cmdOnPath, oneLine_text, hpath]
  | dele => cases parameter <;> simp [dispatch, cmdDele, cmdOnPath, oneLine_text, hpath]
  | rmd => cases parameter <;> simp [dispatch, cmdRmd, cmdOnPath, oneLine_text, hpath]
  | list => simp [dispatch, cmdList, doFullList, oneLine_text]
  | nlst => simp [dispatch, cmdNlst, doSimpleList, oneLine_text]
  | pasv =>
    simp [dispatch, cmdPasv, pasvSocket, pasvBind, pasvListen, pasvAccept, pasvEnd, oneLine_text]
  | pass => simp [dispatch, cmdPass, oneLine_text]
  | pwd => simp [dispatch, cmdPwd, oneLine_text, hdir]
  | mdtm => simp [dispatch, cmdMdtm, oneLine_text]
  | syst => simp [dispatch, cmdSyst, oneLine_text]
  | cdup => simp [dispatch, cmdCdup, oneLine_text, hdir.doStepDown]
  | feat => simp [dispatch, cmdFeat, oneLine_text]
  | quit => simp [dispatch, cmdQuit, oneLine_text]
  | uknwn => simp [dispatch, cmdUnknown, oneLine_text]

theorem Clean.nextDir {dir : Bytes} (hd : Clean dir) {parameter : Option Bytes}
    (harg : ∀ s, parameter = some s → Clean s) (cmd : Cmd) :
    Clean (FtpServer.nextDir dir cmd parameter) := by
  rcases nextDir_cases dir cmd parameter with h | h | ⟨-, h⟩ | ⟨path, -, hpath, h⟩ <;> rw [h]
  · exact hd
  · exact hd.doStepDown
  · exact hd.take _
  · exact (hd.fullPath (harg path hpath)).2

theorem Reachable.clean {conn : Conn} (h : Reachable conn) : Clean conn.currentdir := by
  obtain ⟨conn₀, reqs, hstart, hrun⟩ := h
  apply Follows.invariant (fun conn => Clean conn.currentdir) _ hrun
  · rw [hstart.1]
    decide
  · intro conn req conn' hdir hstep
    rw [(sessionStep_effect hstep).currentdir]
    exact hdir.nextDir (fun s hs => clean_argument hs) req.cmd

/-- In every state a session can reach, `currentdir`, the argument of any request and the path
built from it are clean, and every reply on the control connection is one line. -/
theorem replies_never_split {conn : Conn} (h : Reachable conn) (fuel : Nat) (buf : Bytes) :
    Clean conn.currentdir ∧
    (∀ arg, (parseRequest buf).2 = some arg →
      Clean arg ∧ Clean (fullPath conn.currentdir arg).2) ∧
    ∀ t r, Runs (ftpProcessRequest fuel conn buf) t r → ¬Occurs SplitReply t := by
  have hdir := h.clean
  have harg : ∀ s, (parseRequest buf).2 = some s → Clean s := fun s hs => clean_argument hs
  refine ⟨hdir, fun arg hs => ⟨harg arg hs, (hdir.fullPath (harg arg hs)).2⟩, ?_⟩
  intro t r hrun
  rcases request_cases hrun with ⟨rfl, -⟩ | ⟨t', rfl, hrun'⟩
  · simp
  · have hlines := dispatch_oneLine hdir harg fuel _ _ t' r hrun'
    simpa using hlines

theorem replies_never_split_fresh :
    Clean justAccepted.currentdir ∧
    (∀ arg, (parseRequest (bytes "USER a\rb\n")).2 = some arg →
      Clean arg ∧ Clean (fullPath justAccepted.currentdir arg).2) ∧
    ∀ t r, Runs (ftpProcessRequest 0 justAccepted (bytes "USER a\rb\n")) t r →
      ¬Occurs SplitReply t :=
  replies_never_split ⟨justAccepted, [], accepted_justAccepted, rfl⟩ 0 _

end FtpServer

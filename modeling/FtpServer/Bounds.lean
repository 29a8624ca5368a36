import FtpServer.Lines

/-! Which requests keep every string store inside its buffer. -/

namespace FtpServer
open Interaction CString Transition

def NoOverflow {α : Type} (r : Except Fault α) : Prop := ∀ buffer, r ≠ .error (.overflow buffer)

@[simp] theorem noOverflow_ok {α : Type} (a : α) : NoOverflow (.ok a) := by
  simp [NoOverflow]

@[simp] theorem noOverflow_null {α : Type} :
    NoOverflow (.error .nullPointer : Except Fault α) := by
  simp [NoOverflow]

@[simp] theorem noOverflow_overflow {α : Type} (buffer : Buffer) :
    ¬NoOverflow (.error (.overflow buffer) : Except Fault α) := by
  simp [NoOverflow]

/-- Serving what was received overflows nothing, whatever the calls answer. -/
def StoresFit (conn : Conn) (received stale : Bytes) : Prop :=
  ∀ fuel, Always (serveReceived fuel conn received stale) (fun _ r => NoOverflow r)

/-- The path built from an argument has at most 255 bytes, by the length of the argument
and, for a relative one, of the directory before it. -/
def PathFits (dir path : Bytes) : Prop :=
  if path[0]? = some slash ∨ dir = ftpSrvRoot then path.length ≤ 255
  else (path[0]? = some dot ∧ path[1]? = some dot) ∨ dir.length + 1 + path.length ≤ 255

theorem fullPath_fits {dir path : Bytes} (hd : dir.length ≤ 255) :
    (fullPath dir path).2.length < 256 ↔ PathFits dir path := by
  unfold PathFits
  by_cases habs : path[0]? = some slash
  · rw [fullPath_absolute habs, if_pos (.inl habs)]
    exact Nat.lt_succ_iff
  by_cases hroot : dir = ftpSrvRoot
  · rw [fullPath_root hroot, if_pos (.inr hroot)]
    exact Nat.lt_succ_iff
  rw [if_neg (not_or.mpr ⟨habs, hroot⟩)]
  by_cases hdots : path[0]? = some dot ∧ path[1]? = some dot
  · have hdown := doStepDown_length_le dir
    rw [fullPath_dots hroot hdots]
    simp only [hdots, and_self, true_or, iff_true]
    omega
  · rw [fullPath_below habs hroot hdots, List.length_append, List.length_cons]
    simp only [hdots, false_or]
    omega

def CommandFits (dir buf : Bytes) (cmd : Cmd) (parameter : Option Bytes) : Prop :=
  (cmd = .retr → (cstr (buf.drop 5)).length ≤ 255) ∧
  (takesPath cmd → ∀ path, parameter = some path → PathFits dir path)

theorem cmdPort_noOverflow (conn : Conn) (parameter : Option Bytes) :
    Always (cmdPort conn parameter) (fun _ r => NoOverflow r) := by
  refine always_cmdPort conn parameter ?_ ?_ ?_
  · exact fun _ _ _ h => h
  · exact noOverflow_null
  · simp [portConnect, portConnected]

theorem dispatch_noOverflow {conn : Conn} (hdir : conn.currentdir.length ≤ 255) (buf : Bytes)
    (cmd : Cmd) (parameter : Option Bytes) :
    (∀ fuel, Always (dispatch fuel conn buf cmd parameter) (fun _ r => NoOverflow r)) ↔
      CommandFits conn.currentdir buf cmd parameter := by
  have hfits : ∀ path, (fullPath conn.currentdir path).2.length < 256 ↔
      PathFits conn.currentdir path := fun path => fullPath_fits hdir
  cases cmd with
  | port => simpa [dispatch, CommandFits, takesPath] using cmdPort_noOverflow conn parameter
  | cwd =>
    cases parameter with
    | none => simp [dispatch, CommandFits, takesPath, cmdCwd]
    | some path =>
      simp only [dispatch, CommandFits, takesPath, cmdCwd, ← hfits]
      simp [Buffer.size]
      omega
  | retr =>
    cases parameter with
    | none =>
      simp [dispatch, CommandFits, takesPath, cmdRetr, Buffer.size]
      omega
    | some path =>
      simp only [dispatch, CommandFits, takesPath, cmdRetr, ← hfits]
      simp [Buffer.size, retrSeek]
      omega
  | stor => cases parameter <;> simp [dispatch, CommandFits, takesPath, cmdStor, ← hfits]
  | size => cases parameter <;> simp [dispatch, CommandFits, takesPath, cmdSize, ← hfits]
  | mkd => cases parameter <;> simp [dispatch, CommandFits, takesPath, cmdMkd, cmdOnPath, ← hfits]
  | dele => cases parameter <;> simp [dispatch, CommandFits, takesPath, cmdDele, cmdOnPath, ← hfits]
  | rmd => cases parameter <;> simp [dispatch, CommandFits, takesPath, cmdRmd, cmdOnPath, ← hfits]
  | user => cases parameter <;> simp [dispatch, CommandFits, takesPath, cmdUser]
  | type => cases parameter <;> simp [dispatch, CommandFits, takesPath, cmdType]
  | rest => cases parameter <;> simp [dispatch, CommandFits, takesPath, cmdRest]
  | cdup =>
    have hdown := doStepDown_length_le conn.currentdir
    simp [dispatch, CommandFits, takesPath, cmdCdup, Buffer.size]
    omega
  | list => simp [dispatch, CommandFits, takesPath, cmdList, doFullList]
  | nlst => simp [dispatch, CommandFits, takesPath, cmdNlst, doSimpleList]
  | pasv =>
    simp [dispatch, CommandFits, takesPath, cmdPasv, pasvSocket, pasvBind, pasvListen, pasvAccept,
      pasvEnd]
  | pass => simp [dispatch, CommandFits, takesPath, cmdPass]
  | pwd => simp [dispatch, CommandFits, takesPath, cmdPwd]
  | mdtm => simp [dispatch, CommandFits, takesPath, cmdMdtm]
  | syst => simp [dispatch, CommandFits, takesPath, cmdSyst]
  | feat => simp [dispatch, CommandFits, takesPath, cmdFeat]
  | quit => simp [dispatch, CommandFits, takesPath, cmdQuit]
  | uknwn => simp [dispatch, CommandFits, takesPath, cmdUnknown]

/-- The condition on what `recv` returned: it leaves room for the terminator, and the
command it holds keeps to its buffers. -/
def ReceivedFits (conn : Conn) (received stale : Bytes) : Prop :=
  received.length < ftpBufferSize ∧
  CommandFits conn.currentdir (stripLineEnds (received ++ 0 :: stale))
    (parseRequest (received ++ 0 :: stale)).1 (parseRequest (received ++ 0 :: stale)).2

theorem nextDir_length {dir : Bytes} {cmd : Cmd} {parameter : Option Bytes}
    (hdir : dir.length ≤ 255)
    (hbuilt : takesPath cmd → ∃ arg, parameter = some arg ∧ (fullPath dir arg).2.length < 256) :
    (nextDir dir cmd parameter).length ≤ 255 := by
  rcases nextDir_cases dir cmd parameter with h | h | ⟨-, h⟩ | ⟨path, hcmd, hpath, h⟩ <;> rw [h]
  · exact hdir
  · have hdown := doStepDown_length_le dir
    omega
  · rw [List.length_take]
    omega
  · obtain ⟨arg, harg, hlen⟩ := hbuilt (by rw [hcmd]; trivial)
    obtain rfl : path = arg := Option.some.inj (hpath.symm.trans harg)
    omega

theorem Reachable.dir_length {conn : Conn} (h : Reachable conn) :
    conn.currentdir.length ≤ 255 := by
  obtain ⟨conn₀, reqs, hstart, hrun⟩ := h
  apply Follows.invariant (fun conn => conn.currentdir.length ≤ 255) _ hrun
  · rw [hstart.1]
    decide
  · intro conn req conn' hdir hstep
    have heffect := sessionStep_effect hstep
    rw [heffect.currentdir]
    exact nextDir_length hdir heffect.built

/-- From every reachable state, what is received overflows nothing exactly when it
fits. -/
theorem storesFit_iff {conn : Conn} (h : Reachable conn) (received stale : Bytes) :
    StoresFit conn received stale ↔ ReceivedFits conn received stale := by
  have hdispatch := dispatch_noOverflow h.dir_length (stripLineEnds (received ++ 0 :: stale))
    (parseRequest (received ++ 0 :: stale)).1 (parseRequest (received ++ 0 :: stale)).2
  unfold StoresFit ReceivedFits
  rw [← hdispatch]
  simp only [always_serveReceived, always_ftpProcessRequest, noOverflow_ok, and_true,
    noOverflow_overflow, imp_false, not_le]
  refine ⟨fun hall => ⟨(hall 0).2, fun fuel => (hall fuel).1 (hall 0).2⟩, ?_⟩
  intro hfits fuel
  exact ⟨fun _ => hfits.2 fuel, hfits.1⟩

def deepDir : Bytes := slash :: List.replicate 199 (byte 'd')

def cwdDeep : Request where
  received := bytes "CWD " ++ deepDir ++ crlf
  stale := []
  calls := [⟨.malloc, true⟩, ⟨.reply .sockfd 1 (Reply.changedTo deepDir).text, 229⟩]
  fits := by decide +kernel

theorem reachable_deep : Reachable { justAccepted with currentdir := deepDir } :=
  ⟨justAccepted, [cwdDeep], accepted_justAccepted, _,
    ⟨0, by decide, serves_of_replay 0 (by decide +kernel)⟩, rfl⟩

def storName (n : Nat) : Bytes := bytes "STOR " ++ List.replicate n (byte 'f') ++ crlf

theorem storesFit_iff_deep :
    StoresFit { justAccepted with currentdir := deepDir } (storName 54) [] ∧
      ¬StoresFit { justAccepted with currentdir := deepDir } (storName 55) [] := by
  have hfits : ReceivedFits { justAccepted with currentdir := deepDir } (storName 54) [] := by
    have hpair : parseRequest (storName 54 ++ [0]) =
        (.stor, some (List.replicate 54 (byte 'f'))) := by decide +kernel
    rw [ReceivedFits, hpair]
    refine ⟨by decide, by simp, fun _ path hpath => ?_⟩
    obtain rfl := Option.some.inj hpath
    rw [PathFits]
    decide +kernel
  have hlong : ¬ReceivedFits { justAccepted with currentdir := deepDir } (storName 55) [] := by
    have hpair : parseRequest (storName 55 ++ [0]) =
        (.stor, some (List.replicate 55 (byte 'f'))) := by decide +kernel
    rw [ReceivedFits, hpair]
    rintro ⟨-, -, hpath⟩
    have hno := hpath trivial _ rfl
    rw [PathFits] at hno
    exact absurd hno (by decide +kernel)
  exact ⟨(storesFit_iff reachable_deep _ _).mpr hfits,
    mt (storesFit_iff reachable_deep _ _).mp hlong⟩

theorem full_buffer_overflows :
    ¬∀ conn received stale, Reachable conn → 1 ≤ received.length →
      received.length ≤ ftpBufferSize → StoresFit conn received stale := by
  intro h
  have hlen : (List.replicate 512 (byte 'A')).length = ftpBufferSize := List.length_replicate
  have hfits := h justAccepted (List.replicate 512 (byte 'A')) []
    ⟨justAccepted, [], accepted_justAccepted, rfl⟩ (by rw [hlen]; decide) (le_of_eq hlen) 0
  rw [always_serveReceived] at hfits
  exact noOverflow_overflow .ftpBuf (hfits.2 (le_of_eq hlen.symm))

end FtpServer

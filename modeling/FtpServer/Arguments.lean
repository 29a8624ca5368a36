import FtpServer.Sessions

/-! Arguments a request does not have. `parameter_ptr` is NULL without a space behind the
verb, and `strtok` is NULL when a PORT argument runs out of fields. -/

namespace FtpServer
open Interaction CString

def usesArgument : Cmd → Prop
  | .user | .type | .rest | .port => True
  | cmd => takesPath cmd

/-- The argument the command reads is not there, or has too few fields. -/
def Lacks (cmd : Cmd) (parameter : Option Bytes) : Prop :=
  usesArgument cmd ∧ (parameter = none ∨ cmd = .port ∧ ∀ s, parameter = some s → portcom 6 s = none)

/-- `strtok` is given a NULL. -/
@[simp] def Resumes (e : CallEvent) : Prop :=
  match e.call with
  | .strtokSaved => True
  | _ => False

@[simp] def IsErrorReply (sock : Int) (e : CallEvent) : Prop :=
  match e.call with
  | .reply .sockfd sock' text => sock' = sock ∧ ∃ code, replyCode text = some code ∧ 400 ≤ code
  | _ => False

/-- No NULL is read as a string. -/
def NoNullRead (t : List CallEvent) (r : Except Fault (Conn × Int)) : Prop :=
  r ≠ .error .nullPointer ∧ ¬Occurs Resumes t

def Refused (conn : Conn) (t : List CallEvent) (r : Except Fault (Conn × Int)) : Prop :=
  Occurs (IsErrorReply conn.sockfd) t ∧ ∃ ret, r = .ok (conn, ret)

/-- What must hold of a request with respect to its argument. -/
def ArgumentChecked (conn : Conn) (cmd : Cmd) (parameter : Option Bytes) (t : List CallEvent)
    (r : Except Fault (Conn × Int)) : Prop :=
  NoNullRead t r ∧ (Lacks cmd parameter → Refused conn t r)

section Loops

@[simp] theorem resumes_listTrace (line : FilInfo → Bytes) (via : Operand) (sock : Int)
    (entries : List (FilInfo × Int)) (last : FResult × FilInfo) :
    ¬Occurs Resumes (listTrace line via sock entries last) := by
  rw [not_occurs, forall_mem_listTrace]
  simp

@[simp] theorem resumes_retrTrace (sock : Int) (blocks : List ReadBlock) (last : FResult) :
    ¬Occurs Resumes (retrTrace sock blocks last) := by
  rw [not_occurs, forall_mem_retrTrace]
  simp

@[simp] theorem resumes_storTrace (conn : Conn) (blocks : List WriteBlock) (last : StorEnd) :
    ¬Occurs Resumes (storTrace conn blocks last) := by
  rw [not_occurs, forall_mem_storTrace]
  cases last <;> simp [storTrace]

end Loops

@[simp] theorem noNullRead_overflow (t : List CallEvent) (buffer : Buffer) :
    NoNullRead t (.error (.overflow buffer)) ↔ ¬Occurs Resumes t := by
  simp [NoNullRead]

@[simp] theorem noNullRead_ok (t : List CallEvent) (out : Conn × Int) :
    NoNullRead t (.ok out) ↔ ¬Occurs Resumes t := by
  simp [NoNullRead]

theorem not_lacks {cmd : Cmd} {parameter : Option Bytes} (h : ¬Lacks cmd parameter)
    (huses : usesArgument cmd) :
    ∃ s, parameter = some s ∧ (cmd = .port → portcom 6 s ≠ none) := by
  cases parameter with
  | none => exact absurd ⟨huses, .inl rfl⟩ h
  | some s =>
    refine ⟨s, rfl, ?_⟩
    rintro rfl hnone
    apply h
    refine ⟨huses, .inr ⟨rfl, ?_⟩⟩
    rintro s' ⟨⟩
    exact hnone

theorem dispatch_noNullRead {cmd : Cmd} {parameter : Option Bytes} (h : ¬Lacks cmd parameter)
    (fuel : Nat) (conn : Conn) (buf : Bytes) :
    Always (dispatch fuel conn buf cmd parameter) NoNullRead := by
  have hsome := not_lacks h
  cases cmd with
  | port =>
    obtain ⟨s, rfl, hfields⟩ := hsome trivial
    simp only [dispatch, cmdPort, portArgument, always_bind, always_pure, then_ok,
      List.nil_append]
    refine (always_portParsed conn s).mpr ⟨?_, fun hnone => absurd hnone (hfields rfl)⟩
    intro h₀ h₁ h₂ h₃ p₀ p₁ _
    simp [portConnect, portConnected]
  | user =>
    obtain ⟨arg, rfl, -⟩ := hsome trivial
    simp [dispatch, cmdUser]
  | type =>
    obtain ⟨arg, rfl, -⟩ := hsome trivial
    simp [dispatch, cmdType]
  | rest =>
    obtain ⟨arg, rfl, -⟩ := hsome trivial
    simp [dispatch, cmdRest]
  | cwd =>
    obtain ⟨arg, rfl, -⟩ := hsome trivial
    simp [dispatch, cmdCwd]
  | retr =>
    obtain ⟨arg, rfl, -⟩ := hsome trivial
    simp [dispatch, cmdRetr, retrSeek]
  | stor =>
    obtain ⟨arg, rfl, -⟩ := hsome trivial
    simp [dispatch, cmdStor]
  | size =>
    obtain ⟨arg, rfl, -⟩ := hsome trivial
    simp [dispatch, cmdSize]
  | mkd =>
    obtain ⟨arg, rfl, -⟩ := hsome trivial
    simp [dispatch, cmdMkd, cmdOnPath]
  | dele =>
    obtain ⟨arg, rfl, -⟩ := hsome trivial
    simp [dispatch, cmdDele, cmdOnPath]
  | rmd =>
    obtain ⟨arg, rfl, -⟩ := hsome trivial
    simp [dispatch, cmdRmd, cmdOnPath]
  | list => simp [dispatch, cmdList, doFullList]
  | nlst => simp [dispatch, cmdNlst, doSimpleList]
  | pasv => simp [dispatch, cmdPasv, pasvSocket, pasvBind, pasvListen, pasvAccept, pasvEnd]
  | pass => simp [dispatch, cmdPass]
  | pwd => simp [dispatch, cmdPwd]
  | mdtm => simp [dispatch, cmdMdtm]
  | syst => simp [dispatch, cmdSyst]
  | cdup => simp [dispatch, cmdCdup]
  | feat => simp [dispatch, cmdFeat]
  | quit => simp [dispatch, cmdQuit]
  | uknwn => simp [dispatch, cmdUnknown]

def Fails (t : List CallEvent) (r : Except Fault (Conn × Int)) : Prop :=
  (∃ e, r = .error e) ∨ Occurs Resumes t

@[simp] theorem fails_error (t : List CallEvent) (e : Fault) : Fails t (.error e) := by
  simp [Fails]

theorem cmdPort_resumes (conn : Conn) : Always (cmdPort conn none) Fails := by
  simp only [cmdPort, portArgument, always_bind, always_call, then_ok]
  intro saved
  have hresumes : ∀ t r, Fails (⟨.strtokSaved, saved⟩ :: t) r := fun t r => .inr (by simp)
  cases saved with
  | none =>
    rw [always_deref_none]
    exact hresumes [] _
  | some s =>
    rw [always_deref_some]
    exact fun t r _ => hresumes t r

theorem dispatch_fails {cmd : Cmd} {parameter : Option Bytes} (h : Lacks cmd parameter)
    (fuel : Nat) (conn : Conn) (buf : Bytes) :
    Always (dispatch fuel conn buf cmd parameter) Fails := by
  obtain ⟨huses, rfl | ⟨rfl, hfields⟩⟩ := h
  · cases cmd with
    | port => exact cmdPort_resumes conn
    | user => simp [dispatch, cmdUser]
    | type => simp [dispatch, cmdType]
    | rest => simp [dispatch, cmdRest]
    | cwd => simp [dispatch, cmdCwd]
    | retr => simp [dispatch, cmdRetr]
    | stor => simp [dispatch, cmdStor]
    | size => simp [dispatch, cmdSize]
    | mkd => simp [dispatch, cmdMkd, cmdOnPath]
    | dele => simp [dispatch, cmdDele, cmdOnPath]
    | rmd => simp [dispatch, cmdRmd, cmdOnPath]
    | _ => exact huses.elim
  · cases parameter with
    | none => exact cmdPort_resumes conn
    | some s =>
      have hnone : portcom 6 s = none := hfields s rfl
      simp [dispatch, cmdPort, portArgument, always_portParsed, hnone]

/-- A request keeps off NULL, and is refused for want of an argument, exactly when it has the
argument its command uses. -/
theorem argument_checked_iff {fuel : Nat} {conn : Conn} {buf : Bytes} {t : List CallEvent}
    {r : Except Fault (Conn × Int)} (hrun : Runs (ftpProcessRequest fuel conn buf) t r) :
    ArgumentChecked conn (parseRequest buf).1 (parseRequest buf).2 t r ↔
      ¬Lacks (parseRequest buf).1 (parseRequest buf).2 := by
  constructor
  · rintro ⟨hread, hrefused⟩ hlacks
    obtain ⟨hanswered, ret, rfl⟩ := hrefused hlacks
    rcases request_cases hrun with ⟨rfl, -⟩ | ⟨t', rfl, hrun'⟩
    · simp at hanswered
    · rcases dispatch_fails hlacks fuel conn _ t' _ hrun' with ⟨e, he⟩ | hresumes
      · cases he
      · exact hread.2 (by simp [hresumes])
  · intro hhas
    refine ⟨?_, fun hlacks => absurd hlacks hhas⟩
    rcases request_cases hrun with ⟨rfl, rfl⟩ | ⟨t', rfl, hrun'⟩
    · simp
    · have hread := dispatch_noNullRead hhas fuel conn _ t' r hrun'
      exact ⟨hread.1, by simpa using hread.2⟩

theorem type_reads_null :
    Runs (ftpProcessRequest 0 justAccepted (bytes "TYPE\r\n")) [⟨.malloc, true⟩]
      (.error .nullPointer) :=
  runs_of_replay rfl

theorem argument_checked_iff_type :
    ArgumentChecked justAccepted (parseRequest (bytes "TYPE\r\n")).1
        (parseRequest (bytes "TYPE\r\n")).2 [⟨.malloc, true⟩] (.error .nullPointer) ↔
      ¬Lacks (parseRequest (bytes "TYPE\r\n")).1 (parseRequest (bytes "TYPE\r\n")).2 :=
  argument_checked_iff type_reads_null

theorem absent_argument_read :
    ¬∀ fuel conn buf t r, Reachable conn → Runs (ftpProcessRequest fuel conn buf) t r →
      ArgumentChecked conn (parseRequest buf).1 (parseRequest buf).2 t r := by
  intro h
  have hreach : Reachable justAccepted := ⟨justAccepted, [], accepted_justAccepted, rfl⟩
  exact (h _ _ _ _ _ hreach type_reads_null).1.1 rfl

end FtpServer

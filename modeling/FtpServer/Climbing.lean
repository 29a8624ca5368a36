import FtpServer.Bounds

/-! Going up. The slashes behind the first byte are what `do_step_down` has to cut; each CDUP
cuts one of them, and the next one leaves "/". -/

namespace FtpServer
open Interaction CString Transition

section Paths

def innerSlashes (path : Bytes) : Nat := path.tail.count slash

theorem innerSlashes_eq_zero {path : Bytes} (h : slash ∉ path.tail) : innerSlashes path = 0 :=
  List.count_eq_zero.mpr h

theorem innerSlashes_cut {a b : Bytes} (ha : a ≠ []) (hb : slash ∉ b) :
    innerSlashes (a ++ slash :: b) = innerSlashes a + 1 := by
  have htail : (a ++ slash :: b).tail = a.tail ++ slash :: b := List.tail_append_of_ne_nil ha
  unfold innerSlashes
  rw [htail, List.count_append, List.count_cons_self, List.count_eq_zero.mpr hb]

theorem doStepDown_root_or_cut (path : Bytes) :
    doStepDown path = ftpSrvRoot ∨ ∃ rest, path = doStepDown path ++ slash :: rest := by
  cases stepDown_cases path with
  | inl htail =>
    left
    rw [doStepDown_root htail, ftpSrvRoot, bytes_root]
  | inr hcut =>
    obtain ⟨a, b, rfl, ha, hb⟩ := hcut
    exact .inr ⟨b, by rw [doStepDown_cut ha hb]⟩

theorem doStepDown_ftpSrvRoot : doStepDown ftpSrvRoot = ftpSrvRoot := by
  rw [ftpSrvRoot, bytes_root]
  exact doStepDown_root List.not_mem_nil

theorem doStepDown_innerSlashes (path : Bytes) :
    (innerSlashes path = 0 ∧ doStepDown path = ftpSrvRoot) ∨
    innerSlashes path = innerSlashes (doStepDown path) + 1 := by
  cases stepDown_cases path with
  | inl htail =>
    left
    rw [doStepDown_root htail, ftpSrvRoot, bytes_root]
    exact ⟨innerSlashes_eq_zero htail, rfl⟩
  | inr hcut =>
    obtain ⟨a, b, rfl, ha, hb⟩ := hcut
    right
    rw [doStepDown_cut ha hb, innerSlashes_cut ha hb]

theorem iterate_doStepDown {n : Nat} {path : Bytes} (h : innerSlashes path < n) :
    doStepDown^[n] path = ftpSrvRoot := by
  induction n generalizing path with
  | zero => omega
  | succ n ih =>
    rw [Function.iterate_succ_apply]
    cases doStepDown_innerSlashes path with
    | inl hlast =>
      rw [hlast.2]
      exact Function.iterate_fixed doStepDown_ftpSrvRoot n
    | inr hcut => exact ih (by omega)

end Paths

section Requests
variable {conn conn' : Conn} {reqs : List Request}

def ServesCdup (conn : Conn) : Prop :=
  ∀ fuel buf, (parseRequest buf).1 = .cdup →
    Always (ftpProcessRequest fuel conn buf) (fun t r => ⟨.malloc, false⟩ ∈ t ∨
      r = .ok ({ conn with currentdir := doStepDown conn.currentdir }, 0))

theorem servesCdup_of_length (hdir : conn.currentdir.length ≤ 255) : ServesCdup conn := by
  intro fuel buf hcmd
  have hdown := doStepDown_length_le conn.currentdir
  rw [always_ftpProcessRequest, hcmd]
  simp [dispatch, cmdCdup, Buffer.size]
  omega

theorem climb_currentdir (hcmds : ∀ req ∈ reqs, req.cmd = .cdup)
    (hrun : Follows sessionStep conn reqs conn') :
    conn'.currentdir = doStepDown^[reqs.length] conn.currentdir := by
  induction reqs generalizing conn with
  | nil =>
    cases hrun
    rfl
  | cons req reqs ih =>
    obtain ⟨u, hstep, hrest⟩ := hrun
    have hcmd : req.cmd = .cdup := hcmds req List.mem_cons_self
    have hu : u.currentdir = doStepDown conn.currentdir := by
      rw [(sessionStep_effect hstep).currentdir, hcmd, nextDir]
    rw [ih (fun r hr => hcmds r (List.mem_cons_of_mem req hr)) hrest, hu, List.length_cons,
      Function.iterate_succ_apply]

/-- Every CDUP of this session is served while there is memory, and enough of them lead to
the root. -/
structure Climbs (conn : Conn) : Prop where
  served : ServesCdup conn
  root : ∀ reqs conn', (∀ req ∈ reqs, req.cmd = .cdup) → Follows sessionStep conn reqs conn' →
    1 + innerSlashes conn.currentdir ≤ reqs.length → conn'.currentdir = ftpSrvRoot

theorem Reachable.climbs (h : Reachable conn) : Climbs conn where
  served := servesCdup_of_length h.dir_length
  root := by
    intro reqs conn' hcmds hrun hlen
    rw [climb_currentdir hcmds hrun]
    exact iterate_doStepDown (by omega)

end Requests

/-- Going up ends at the root, from any text and so from any session. -/
theorem step_down_reaches_root (path : Bytes) :
    (doStepDown path = ftpSrvRoot ∨ ∃ rest, path = doStepDown path ++ slash :: rest) ∧
    (∀ n, 1 + innerSlashes path ≤ n → doStepDown^[n] path = ftpSrvRoot) ∧
    ∀ conn, Reachable conn → Climbs conn := by
  refine ⟨doStepDown_root_or_cut path, ?_, fun conn hreach => hreach.climbs⟩
  intro n hn
  exact iterate_doStepDown (by omega)

theorem step_down_reaches_root_slashes :
    doStepDown^[4] (bytes "//a/") = ftpSrvRoot ∧ Climbs justAccepted := by
  constructor
  · exact (step_down_reaches_root (bytes "//a/")).2.1 4 (by decide)
  · exact (step_down_reaches_root ftpSrvRoot).2.2 justAccepted
      ⟨justAccepted, [], accepted_justAccepted, rfl⟩

end FtpServer

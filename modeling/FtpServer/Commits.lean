import FtpServer.Sessions

/-! Commits. FatFs keeps what `f_write` accepted, and the size it makes, until `f_close`. -/

namespace FtpServer
open Interaction CString

@[simp] def uncommittedAfter (pending : Bytes) (e : CallEvent) : Bytes :=
  match e with
  | ⟨.fWrite data, answer⟩ => pending ++ data.take answer.2
  | ⟨.fClose, _⟩ => []
  | _ => pending

def uncommitted (t : List CallEvent) : Bytes := t.foldl uncommittedAfter []

@[simp] def isClose (e : CallEvent) : Bool :=
  match e.call with
  | .fClose => true
  | _ => false

/-- `select` saw nothing within its three seconds, or failed. -/
@[simp] def TimedOut (e : CallEvent) : Prop :=
  match e with
  | ⟨.select _ _, ready⟩ => ready.ret ≤ 0
  | _ => False

@[simp] def OpensFile (e : CallEvent) : Prop :=
  match e with
  | ⟨.fOpen _ _, rc⟩ => rc = .ok
  | _ => False

/-- The file is closed once, and nothing it accepted is left behind. -/
def Commits (t : List CallEvent) : Prop := t.countP isClose = 1 ∧ uncommitted t = []

def StorEnd.IsTimeout : StorEnd → Prop
  | timeout _ => True
  | closed _ _ _ | lost _ _ => False

theorem countP_storTrace (conn : Conn) (blocks : List WriteBlock) (last : StorEnd) :
    (storTrace conn blocks last).countP isClose = 1 ↔ ¬last.IsTimeout := by
  induction blocks with
  | nil => cases last <;> simp [storTrace, StorEnd.IsTimeout, List.countP_cons]
  | cons block blocks ih => simpa [storTrace] using ih

theorem uncommitted_storTrace (conn : Conn) (blocks : List WriteBlock) {last : StorEnd}
    (hlast : ¬last.IsTimeout) (pending : Bytes) :
    (storTrace conn blocks last).foldl uncommittedAfter pending = [] := by
  induction blocks generalizing pending with
  | nil =>
    cases last with
    | timeout ready => exact absurd trivial hlast
    | closed ready rc sent => simp [storTrace]
    | lost ready rc => simp [storTrace]
  | cons block blocks ih =>
    have hrest := ih (pending ++ block.data.take block.written.2)
    simpa [storTrace] using hrest

theorem timesOut_storTrace (conn : Conn) {blocks : List WriteBlock} {last : StorEnd}
    (hgoes : ∀ block ∈ blocks, block.Goes) (hstops : last.Stops) :
    Occurs TimedOut (storTrace conn blocks last) ↔ last.IsTimeout := by
  have hblocks : ∀ block ∈ blocks, ¬block.ready.ret ≤ 0 :=
    fun block hb => not_le.mpr (hgoes block hb).1
  rw [← not_iff_not, not_occurs, forall_mem_storTrace]
  cases last with
  | timeout ready =>
    have hready : ready.ret ≤ 0 := hstops
    simp [storTrace, StorEnd.IsTimeout, hready]
  | closed ready rc sent | lost ready rc =>
    have hready : ¬ready.ret ≤ 0 := not_le.mpr hstops
    simpa [storTrace, StorEnd.IsTimeout, hready] using hblocks

def CommitsUnlessTimeout (t : List CallEvent) : Prop :=
  Occurs OpensFile t → (Commits t ↔ ¬Occurs TimedOut t)

theorem dispatch_commits (fuel : Nat) (conn : Conn) (buf : Bytes) (parameter : Option Bytes) :
    Always (dispatch fuel conn buf .stor parameter) (fun t _ => CommitsUnlessTimeout t) := by
  cases parameter with
  | none => simp [dispatch, cmdStor, CommitsUnlessTimeout]
  | some arg =>
    simp [dispatch, cmdStor]
    refine ⟨fun hfits rc => ⟨?_, ?_⟩, fun hlong => by simp [CommitsUnlessTimeout]⟩
    · rintro rfl sent blocks last - hgoes hstops closed -
      have htimes := timesOut_storTrace
        { conn with currentdir := (fullPath conn.currentdir arg).1 } hgoes hstops
      have hcount := countP_storTrace
        { conn with currentdir := (fullPath conn.currentdir arg).1 } blocks last
      simp [Commits, uncommitted, htimes, hcount]
      exact fun hlast => uncommitted_storTrace _ blocks hlast []
    · intro hrc sent hopens
      simp [hrc] at hopens

/-- A STOR that opened its file commits it exactly when no `select` times out. -/
theorem upload_commits_iff {conn conn' : Conn} {req : Request} {ret : Int}
    (hserves : Serves conn req conn' ret) (hstor : req.cmd = .stor)
    (hopens : Occurs OpensFile req.calls) :
    Commits req.calls ↔ ¬Occurs TimedOut req.calls := by
  rcases serves_cases hserves with ⟨hcalls, -⟩ | ⟨fuel, t, hcalls, hrun⟩
  · simp [hcalls] at hopens
  · rw [hstor] at hrun
    rw [hcalls] at hopens ⊢
    have hdone := dispatch_commits fuel conn _ req.parameter t _ hrun (by simpa using hopens)
    simpa [Commits, uncommitted] using hdone

def storSilent : Request where
  received := bytes "STOR a\r\n"
  stale := []
  calls := [⟨.malloc, true⟩, ⟨.fOpen (bytes "a") (faWrite ||| faOpenAlways), FResult.ok⟩,
    ⟨.reply .sockfd 1 (Reply.openingUpload (bytes "a")).text, 55⟩,
    ⟨.select .pasvSockfd 2, ⟨1, true⟩⟩, ⟨.recv .pasvSockfd 2 512, some (bytes "z")⟩,
    ⟨.fWrite (bytes "z"), (FResult.ok, 1)⟩, ⟨.select .pasvSockfd 2, ⟨0, false⟩⟩,
    ⟨.close .pasvSockfd 2, 0⟩]
  fits := by decide

def dataOpen : Conn := { justAccepted with pasvActive := 1, pasvSockfd := 2 }

theorem storSilent_served : Serves dataOpen storSilent dataOpen 0 :=
  serves_of_replay 3 rfl

theorem upload_commits_iff_silent :
    Commits storSilent.calls ↔ ¬Occurs TimedOut storSilent.calls :=
  upload_commits_iff storSilent_served rfl (by simp [storSilent])

theorem silent_upload_lost :
    ¬∀ conn req conn' ret, Serves conn req conn' ret → req.cmd = .stor →
      Occurs OpensFile req.calls → Commits req.calls := by
  intro h
  have hcommits := h _ _ _ _ storSilent_served rfl (by simp [storSilent])
  have hpending : uncommitted storSilent.calls = bytes "z" := rfl
  exact absurd (hpending.symm.trans hcommits.2) (by decide)

end FtpServer

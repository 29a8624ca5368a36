import FtpServer.Restart

/-! STOR and the RETR that follows it. FatFs opens the target with its old content, and
STOR never truncates it. -/

namespace FtpServer
open Interaction CString Overlay Transition

@[simp] def Is226 (sock : Int) (e : CallEvent) : Prop :=
  match e.call with
  | .reply .sockfd sock' text => sock' = sock ∧ replyCode text = some 226
  | _ => False

def Answered226 (sock : Int) (t : List CallEvent) : Prop := ∃ e ∈ t, Is226 sock e

@[simp] theorem answered226_nil (sock : Int) : ¬Answered226 sock [] := by
  simp [Answered226]

@[simp] theorem answered226_cons (sock : Int) (e : CallEvent) (t : List CallEvent) :
    Answered226 sock (e :: t) ↔ Is226 sock e ∨ Answered226 sock t := by
  simp [Answered226]

@[simp] theorem answered226_append (sock : Int) (t t' : List CallEvent) :
    Answered226 sock (t ++ t') ↔ Answered226 sock t ∨ Answered226 sock t' := by
  simp [Answered226, or_and_right, exists_or]

section Calls
variable {disk : Disk}

theorem smooth_write {file : OpenFile} {content data : Bytes} (hopen : disk.Open file content)
    (herr : file.err = false) (h : (overlay content file.fptr data).length < 2 ^ 32)
    (answer : FResult × Nat) (u : Disk) :
    smoothStep disk ⟨.fWrite data, answer⟩ u ↔
      answer = (FResult.ok, data.length) ∧
      u = (disk.store file.path (overlay content file.fptr data) h).hold
        (some { file with fptr := file.fptr + data.length }) := by
  obtain ⟨rc, written⟩ := answer
  simp only [smoothStep, diskStep, Smooth, Disk.answers, Disk.Open, Disk.Writes, hopen.1,
    Prod.mk.injEq]
  constructor
  · rintro ⟨⟨rfl, rfl⟩, file', content', ⟨hfile', hcontent'⟩, -, -, -, hstored, hu⟩
    obtain rfl : file' = file := by simpa using hfile'.symm
    obtain rfl : content' = content := by simpa [hopen.2] using hcontent'.symm
    simp only [List.take_length, ne_eq, not_true_eq_false, decide_false] at hu
    rw [herr]
    exact ⟨⟨rfl, rfl⟩, hu⟩
  · rintro ⟨⟨rfl, rfl⟩, hu⟩
    refine ⟨⟨rfl, rfl⟩, file, content, ⟨rfl, hopen.2⟩, le_refl _, by simp, by simp [herr],
      by rwa [List.take_length], ?_⟩
    simp only [List.take_length, ne_eq, not_true_eq_false, decide_false]
    rw [hu, herr]

theorem smooth_recv {via : Operand} {sock : Int} {len : Nat} (data : Option Bytes) (u : Disk) :
    smoothStep disk ⟨.recv via sock len, data⟩ u ↔
      (data = some [] ∧ disk.incoming = [] ∧ u = disk) ∨
      ∃ chunk rest, data = some chunk ∧ chunk ≠ [] ∧ chunk.length ≤ len ∧
        disk.incoming = chunk ++ rest ∧ u = { disk with incoming := rest } := by
  simp only [smoothStep, diskStep, Smooth, Disk.answers]
  constructor
  · rintro ⟨hsome, hnone | hdata⟩
    · exact absurd hnone.1 hsome
    · exact hdata
  · intro hdata
    refine ⟨?_, .inr hdata⟩
    rcases hdata with ⟨rfl, -⟩ | ⟨chunk, rest, rfl, -⟩ <;> simp

theorem total_select {via : Operand} {sock : Int}
    {post : Disk → List CallEvent → Except Fault SelectResult → Prop} :
    Total smoothStep (select via sock) disk post ↔
      ∀ ready : SelectResult, 0 < ready.ret →
        post disk [⟨.select via sock, ready⟩] (.ok ready) := by
  have hsome : ∃ ready : SelectResult, 0 < ready.ret := ⟨⟨1, true⟩, by decide⟩
  simp [smoothStep, diskStep, Smooth, Disk.answers, hsome]

theorem total_recv {via : Operand} {sock : Int} {len : Nat} (hlen : 0 < len)
    {post : Disk → List CallEvent → Except Fault (Option Bytes) → Prop} :
    Total smoothStep (recv via sock len) disk post ↔
      (disk.incoming = [] → post disk [⟨.recv via sock len, some []⟩] (.ok (some []))) ∧
      ∀ chunk rest, chunk ≠ [] → chunk.length ≤ len → disk.incoming = chunk ++ rest →
        post { disk with incoming := rest } [⟨.recv via sock len, some chunk⟩]
          (.ok (some chunk)) := by
  rw [total_call]
  simp only [smooth_recv]
  constructor
  · rintro ⟨-, hall⟩
    exact ⟨fun hend => hall _ _ (.inl ⟨rfl, hend, rfl⟩), fun chunk rest hne hle hin =>
      hall _ _ (.inr ⟨chunk, rest, rfl, hne, hle, hin, rfl⟩)⟩
  · rintro ⟨hend, hchunk⟩
    constructor
    · by_cases hin : disk.incoming = []
      · exact ⟨some [], disk, .inl ⟨rfl, hin, rfl⟩⟩
      · obtain ⟨b, rest, hcons⟩ := List.exists_cons_of_ne_nil hin
        exact ⟨some [b], _, .inr ⟨[b], rest, rfl, by simp, hlen, hcons, rfl⟩⟩
    · rintro data u (⟨rfl, hin, rfl⟩ | ⟨chunk, rest, rfl, hne, hle, hin, rfl⟩)
      · exact hend hin
      · exact hchunk chunk rest hne hle hin

theorem total_storLoop {file : OpenFile} {content : Bytes} {fuel : Nat} (conn : Conn)
    (hopen : disk.Open file content) (herr : file.err = false)
    (hptr : file.fptr ≤ content.length) (hsize : file.fptr + disk.incoming.length < 2 ^ 32)
    (hfuel : disk.incoming.length < fuel) :
    Total smoothStep (storLoop conn fuel) disk (fun _ t r =>
      Answered226 conn.sockfd t ∧ r = .ok 0) := by
  induction fuel generalizing disk file content with
  | zero => omega
  | succ fuel ih =>
    unfold storLoop
    rw [total_bind, total_select]
    intro ready hready
    rw [next_ok, if_pos hready, total_bind, total_recv (by decide)]
    constructor
    · intro _
      simp only [next_ok, total_bind, total_fClose, total_reply (Reply.text_ne_nil _), total_pure]
      intro sent _
      simp
    · intro chunk rest hchunk hle hin
      obtain ⟨b, data, rfl⟩ := List.exists_cons_of_ne_nil hchunk
      have hlength : disk.incoming.length = (b :: data).length + rest.length := by
        rw [hin, List.length_append]
      have hcontent := disk.small _ content hopen.2
      have hgrown := length_overlay hptr (b :: data)
      have hstored : (overlay content file.fptr (b :: data)).length < 2 ^ 32 := by omega
      have hopened : ({ disk with incoming := rest } : Disk).Open file content := hopen
      have hmore : 0 < (b :: data).length := by simp
      simp only [next_ok]
      rw [total_bind, total_call_unique (smooth_write hopened herr hstored), next_ok]
      have hptr' : file.fptr + (b :: data).length ≤
          (overlay content file.fptr (b :: data)).length := by omega
      have hsize' : file.fptr + (b :: data).length + rest.length < 2 ^ 32 := by omega
      have hfuel' : rest.length < fuel := by omega
      have hwritten : ((({ disk with incoming := rest } : Disk).store file.path _ hstored).hold
          (some { file with fptr := file.fptr + (b :: data).length })).Open
          { file with fptr := file.fptr + (b :: data).length }
          (overlay content file.fptr (b :: data)) := ⟨rfl, Function.update_self ..⟩
      refine (ih hwritten herr hptr' hsize' hfuel').mono ?_
      rintro u t r ⟨hanswered, hr⟩
      exact ⟨by simp [hanswered], hr⟩

end Calls

/-- What the target holds before the upload; an absent file is created empty. -/
def Disk.previous (disk : Disk) (path : Bytes) : Bytes := (disk.files path).getD []

theorem smooth_openAlways (disk : Disk) (path : Bytes) :
    ∃ v : Disk, (∀ (rc : FResult) (u : Disk),
        smoothStep disk ⟨.fOpen path (faWrite ||| faOpenAlways), rc⟩ u ↔ rc = .ok ∧ u = v) ∧
      v.Open ⟨path, 0, false⟩ (disk.previous path) ∧ v.incoming = disk.incoming := by
  have hmode : (faWrite ||| faOpenAlways) &&& faOpenAlways ≠ 0 := by decide
  cases hfile : disk.files path with
  | none =>
    refine ⟨(disk.store path [] (by simp)).hold (some ⟨path, 0, false⟩), ?_, ⟨rfl, ?_⟩, rfl⟩
    · intro rc u
      by_cases hrc : rc = .ok <;>
        simp [smoothStep, diskStep, Smooth, Disk.answers, hfile, hrc, hmode]
    · simp [Disk.hold, Disk.store, Disk.previous, hfile]
  | some content =>
    refine ⟨disk.hold (some ⟨path, 0, false⟩), ?_, ⟨rfl, ?_⟩, rfl⟩
    · exact smooth_open (by simp [hfile]) _
    · simp [Disk.hold, Disk.previous, hfile]

theorem total_cmdStor {disk : Disk} {fuel : Nat} {conn : Conn} {arg : Bytes}
    (hpath : (fullPath conn.currentdir arg).2.length < 256)
    (hsize : disk.incoming.length < 2 ^ 32) (hfuel : disk.incoming.length < fuel) :
    Total smoothStep (cmdStor fuel conn (some arg)) disk (fun _ t r =>
      Answered226 conn.sockfd t ∧ ∃ conn', r = .ok (conn', 0)) := by
  obtain ⟨v, hopened, hopen, hincoming⟩ :=
    smooth_openAlways disk (fullPath conn.currentdir arg).2
  have hnot : ¬256 ≤ (fullPath conn.currentdir arg).2.length := by omega
  rw [cmdStor, total_bind, total_doFullPath]
  refine ⟨fun _ => ?_, fun hlong => absurd hlong hnot⟩
  rw [next_ok, total_bind, total_call_unique hopened, next_ok, if_neg (by simp), total_bind,
    total_reply (Reply.text_ne_nil _)]
  intro sent _
  rw [next_ok, total_bind]
  refine (total_storLoop { conn with currentdir := (fullPath conn.currentdir arg).1 } hopen rfl
    (Nat.zero_le _) (by simpa [hincoming] using hsize) (by simpa [hincoming] using hfuel)).mono ?_
  rintro u t r ⟨hanswered, rfl⟩
  simp only [next_ok, total_bind, total_closeSocket, total_pure]
  intro k
  exact ⟨by simp [hanswered], _, rfl⟩

/-- The answers an upload needs: the socket is ready, the client does not break off, and
`f_write` stores all it is given. `f_open` answers `opened`. -/
def Uploading (opened : FResult) : (c : Call) → c.Answer → Prop
  | .fOpen _ _, rc => rc = opened
  | .select _ _, ready => 0 < ready.ret
  | .recv _ _ _, data => data ≠ none
  | .fWrite data, (rc, written) => rc = .ok ∧ written = data.length
  | _, _ => True

def uploadStep (opened : FResult) (disk : Disk) (e : CallEvent) (disk' : Disk) : Prop :=
  Uploading opened e.call e.answer ∧ diskStep disk e disk'

theorem uploadStep_of_smoothStep (disk : Disk) (e : CallEvent) (disk' : Disk)
    (h : smoothStep disk e disk') : uploadStep .ok disk e disk' := by
  obtain ⟨q, a⟩ := e
  cases q <;> first | exact h | exact ⟨trivial, h.2⟩

theorem storTrace_closed {opened : FResult} {disk u : Disk} {file : OpenFile} {content : Bytes}
    (conn : Conn) (blocks : List WriteBlock) (ready : SelectResult) (rc : FResult) (sent : Int)
    (hopen : disk.Open file content) (hptr : file.fptr ≤ content.length)
    (hgoes : ∀ block ∈ blocks, block.Goes)
    (hf : Follows (uploadStep opened) disk (storTrace conn blocks (.closed ready rc sent)) u) :
    u.files = Function.update disk.files file.path
        (some (overlay content file.fptr disk.incoming)) ∧
      file.fptr + disk.incoming.length < 2 ^ 32 := by
  induction blocks generalizing disk file content with
  | nil =>
    obtain ⟨v, hselect, w, hrecv, x, hclose, y, hreply, rfl⟩ := hf
    obtain rfl : v = disk := hselect.2
    have hcontent := v.small _ content hopen.2
    rcases (smooth_recv _ _).mp hrecv with ⟨-, hend, rfl⟩ | ⟨chunk, rest, hchunk, hne, -⟩
    · obtain rfl : x = w.hold none := hclose.2
      obtain rfl : u = w.hold none := hreply.2.2
      rw [hend, overlay_nil, List.length_nil, ← hopen.2, Function.update_eq_self]
      exact ⟨rfl, by omega⟩
    · exact absurd (Option.some.inj hchunk).symm hne
  | cons block blocks ih =>
    obtain ⟨v, hselect, w, hrecv, x, hwrite, hf⟩ := hf
    obtain rfl : v = disk := hselect.2
    rcases (smooth_recv _ _).mp hrecv with ⟨hchunk, -⟩ | ⟨chunk, rest, hchunk, -, -, hin, rfl⟩
    · exact absurd (Option.some.inj hchunk) (hgoes block (by simp)).2
    · obtain ⟨⟨-, hall⟩, file', content', hopen', -, -, -, hstored, rfl⟩ := hwrite
      obtain rfl : file' = file := by simpa [hopen.1] using hopen'.1.symm
      obtain rfl : content' = content := by simpa [hopen.2] using hopen'.2.symm
      obtain rfl : block.data = chunk := Option.some.inj hchunk
      have hwritten : block.written.2 = block.data.length := hall
      have htaken : block.data.take block.written.2 = block.data := by
        rw [hwritten, List.take_length]
      have hptr' : file'.fptr + block.written.2 ≤
          (overlay content' file'.fptr (block.data.take block.written.2)).length := by
        rw [htaken, length_overlay hptr]
        omega
      have hrest := ih ⟨rfl, Function.update_self ..⟩ hptr' (fun b hb => hgoes b (by simp [hb])) hf
      simp only [Disk.hold, Disk.store, hwritten, List.take_length, overlay_append hptr,
        Function.update_idem] at hrest
      rw [hin, List.length_append]
      exact ⟨hrest.1, by omega⟩

@[simp] theorem answered226_storTrace {conn : Conn} {sock : Int} {blocks : List WriteBlock}
    {last : StorEnd} :
    Answered226 sock (storTrace conn blocks last) ↔
      conn.sockfd = sock ∧ ∃ ready rc sent, last = .closed ready rc sent := by
  induction blocks with
  | nil => cases last <;> simp [storTrace]
  | cons block blocks ih => simpa [storTrace] using ih

def StorFits (conn : Conn) (arg : Bytes) : Prop := (fullPath conn.currentdir arg).2.length < 256

/-- An upload that was answered 226 kept to its buffer and to the size of a file, and left
the old content overwritten from the start. -/
def Uploaded (disk : Disk) (conn : Conn) (arg : Bytes) (t : List CallEvent) : Prop :=
  ∀ u, Follows smoothStep disk t u → Answered226 conn.sockfd t →
    u.files (fullPath conn.currentdir arg).2 =
      some (overlay (disk.previous (fullPath conn.currentdir arg).2) 0 disk.incoming) ∧
    StorFits conn arg ∧ disk.incoming.length < 2 ^ 32

theorem cmdStor_uploaded (disk : Disk) (fuel : Nat) (conn : Conn) (arg : Bytes) :
    Always (cmdStor fuel conn (some arg)) (fun t _ => Uploaded disk conn arg t) := by
  simp [cmdStor]
  refine ⟨?_, by simp [Uploaded]⟩
  intro hfits rc
  refine ⟨?_, by simp [Uploaded]⟩
  rintro rfl sent blocks last - hgoes - k u hf hanswered
  obtain ⟨v, hopened, hopen, hincoming⟩ :=
    smooth_openAlways disk (fullPath conn.currentdir arg).2
  obtain ⟨ready, rc, sent', rfl⟩ : ∃ ready rc sent', last = .closed ready rc sent' := by
    simpa using hanswered
  obtain ⟨w, hw, x, hreply, hf⟩ := hf
  obtain ⟨-, rfl⟩ := (hopened _ _).mp hw
  obtain rfl : x = w := hreply.2.2
  obtain ⟨y, hf, z, hclosed, rfl⟩ := (follows_append _ _ _ _).mp hf
  obtain rfl : u = y := hclosed.2
  have hdone := storTrace_closed _ blocks ready rc sent' hopen (Nat.zero_le _) hgoes
    (hf.mono uploadStep_of_smoothStep)
  rw [hincoming] at hdone
  exact ⟨by simp [hdone.1], hfits, by simpa using hdone.2⟩

theorem ftpProcessRequest_uploaded {conn : Conn} {buf arg : Bytes}
    (hstor : parseRequest buf = (.stor, some arg)) (disk : Disk) (fuel : Nat) :
    Always (ftpProcessRequest fuel conn buf) (fun t _ => Uploaded disk conn arg t) := by
  rw [always_ftpProcessRequest, hstor]
  refine ⟨(cmdStor_uploaded disk fuel conn arg).mono ?_, by simp [Uploaded]⟩
  rintro t - hdone u ⟨v, hmalloc, hf⟩ hanswered
  obtain rfl : v = disk := hmalloc.2
  exact hdone u hf (by simpa using hanswered)

/-- Whenever STOR has answered 226, the target holds what was uploaded, and RETR of the
same file transmits it. -/
def RoundTrips (disk : Disk) (conn : Conn) (buf path : Bytes) (later : Conn) (again : Bytes) :
    Prop :=
  ∀ fuel t r u, Runs (ftpProcessRequest fuel conn buf) t r → Follows smoothStep disk t u →
    Answered226 conn.sockfd t →
    u.files path = some disk.incoming ∧
      ∀ v : Disk, v.files path = u.files path → Transmits v later again disk.incoming

theorem RoundTrips.reaches {disk : Disk} {conn later : Conn} {buf arg again : Bytes}
    (hstor : parseRequest buf = (.stor, some arg)) (hfits : StorFits conn arg)
    (hshort : disk.incoming.length < 2 ^ 32)
    (h : RoundTrips disk conn buf (fullPath conn.currentdir arg).2 later again) :
    (disk.previous (fullPath conn.currentdir arg).2).length ≤ disk.incoming.length ∧
      ∃ v : Disk, v.files (fullPath conn.currentdir arg).2 = some disk.incoming ∧
        Transmits v later again disk.incoming := by
  have hends : Total smoothStep (ftpProcessRequest (disk.incoming.length + 1) conn buf) disk
      (fun _ t _ => Answered226 conn.sockfd t) := by
    rw [total_ftpProcessRequest, hstor]
    refine (total_cmdStor hfits hshort (Nat.lt_succ_self _)).mono ?_
    intro u t r hdone
    simp [hdone.1]
  obtain ⟨t, r, u, hrun, hf, hanswered⟩ := hends.exists_run
  have hfile := (ftpProcessRequest_uploaded hstor disk _ t r hrun u hf hanswered).1
  have htrip := h _ t r u hrun hf hanswered
  have hover := Option.some.inj (hfile.symm.trans htrip.1)
  exact ⟨(overlay_zero_eq_iff _ _).mp hover, u, htrip.1, htrip.2 u rfl⟩

theorem startsRight_zero (size : Nat) : StartsRight 0 size ↔ size ≠ 2 ^ 32 - 1 := by
  simp [StartsRight]

/-- STOR and a later RETR of the same file, with no offset in effect, round-trip exactly when
the upload reaches the end of what the file held, the RETR keeps to its buffer, and the size
can be told from an error. The rest of a run that overflows its buffer is undefined: of such a
STOR nothing is said, and such a RETR is no round trip. -/
theorem upload_roundTrips_iff {disk : Disk} {conn later : Conn} {buf arg again arg' : Bytes}
    (hstor : parseRequest buf = (.stor, some arg)) (hretr : parseRequest again = (.retr, some arg'))
    (hsame : (fullPath later.currentdir arg').2 = (fullPath conn.currentdir arg).2)
    (hoffset : later.offset = 0) :
    RoundTrips disk conn buf (fullPath conn.currentdir arg).2 later again ↔
      (StorFits conn arg → disk.incoming.length < 2 ^ 32 →
        (disk.previous (fullPath conn.currentdir arg).2).length ≤ disk.incoming.length ∧
        RetrFits later again arg' ∧ disk.incoming.length ≠ 2 ^ 32 - 1) := by
  have hagain : ∀ v : Disk, v.files (fullPath conn.currentdir arg).2 = some disk.incoming →
      (Transmits v later again disk.incoming ↔
        RetrFits later again arg' ∧ disk.incoming.length ≠ 2 ^ 32 - 1) := by
    intro v hv
    rw [transmits_iff hretr (hsame ▸ hv), transmitted_eq_self, hoffset, startsRight_zero]
  constructor
  · intro htrips hfits hshort
    obtain ⟨hreaches, v, hv, hsent⟩ := htrips.reaches hstor hfits hshort
    exact ⟨hreaches, (hagain v hv).mp hsent⟩
  · intro hcond fuel t r u hrun hf hanswered
    obtain ⟨hfile, hfits, hshort⟩ :=
      ftpProcessRequest_uploaded hstor disk fuel t r hrun u hf hanswered
    obtain ⟨hreaches, hsent⟩ := hcond hfits hshort
    rw [(overlay_zero_eq_iff _ _).mpr hreaches] at hfile
    exact ⟨hfile, fun v hv => (hagain v (hv.trans hfile)).mpr hsent⟩

def storBuf : Bytes := bytes "STOR /a\r\n"

theorem parseRequest_storBuf : parseRequest storBuf = (.stor, some (bytes "/a")) := rfl

def shorterUpload : Disk := .single (bytes "/a") (bytes "xy") (bytes "z") (by decide)

theorem upload_roundTrips_iff_shorter :
    RoundTrips shorterUpload justAccepted storBuf (bytes "/a") justAccepted retrBuf ↔
      (StorFits justAccepted (bytes "/a") → shorterUpload.incoming.length < 2 ^ 32 →
        (shorterUpload.previous (bytes "/a")).length ≤ shorterUpload.incoming.length ∧
        RetrFits justAccepted retrBuf (bytes "/a") ∧
        shorterUpload.incoming.length ≠ 2 ^ 32 - 1) :=
  upload_roundTrips_iff parseRequest_storBuf parseRequest_retrBuf rfl rfl

theorem shorter_upload_keeps_tail :
    ¬∀ disk conn later buf arg again arg', parseRequest buf = (.stor, some arg) →
      parseRequest again = (.retr, some arg') →
      (fullPath later.currentdir arg').2 = (fullPath conn.currentdir arg).2 →
      later.offset = 0 →
      RoundTrips disk conn buf (fullPath conn.currentdir arg).2 later again := by
  intro h
  have htrips := h shorterUpload justAccepted justAccepted storBuf (bytes "/a") retrBuf
    (bytes "/a") parseRequest_storBuf parseRequest_retrBuf rfl rfl
  have hfits : StorFits justAccepted (bytes "/a") := by
    unfold StorFits
    decide
  have hreaches := (htrips.reaches parseRequest_storBuf hfits (by decide)).1
  exact absurd hreaches (by decide)

end FtpServer

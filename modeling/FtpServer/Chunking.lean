import FtpServer.Uploads

/-! How the uploaded bytes are cut into the results of `recv` does not matter. -/

namespace FtpServer
open Interaction CString Overlay Transition

@[simp] def chunkOf : CallEvent → Option Bytes
  | ⟨.recv _ _ _, some (b :: data)⟩ => some (b :: data)
  | _ => none

def chunksOf (t : List CallEvent) : List Bytes := t.flatMap fun e => (chunkOf e).toList

section Traces

@[simp] theorem chunksOf_nil : chunksOf [] = [] := rfl

@[simp] theorem chunksOf_cons (e : CallEvent) (t : List CallEvent) :
    chunksOf (e :: t) = (chunkOf e).toList ++ chunksOf t := rfl

@[simp] theorem chunksOf_append (t t' : List CallEvent) :
    chunksOf (t ++ t') = chunksOf t ++ chunksOf t' := List.flatMap_append

end Traces

def Cuts (incoming : Bytes) (chunks : List Bytes) : Prop :=
  chunks.flatten = incoming ∧ ∀ chunk ∈ chunks, 1 ≤ chunk.length ∧ chunk.length ≤ ftpBufferSize

/-- STOR is served to its end, and what it receives comes in these chunks. -/
def Stores (opened : FResult) (disk : Disk) (conn : Conn) (arg : Bytes) (chunks : List Bytes)
    (t : List CallEvent) (r : Except Fault (Conn × Int)) (u : Disk) : Prop :=
  (∃ fuel, Runs (cmdStor fuel conn (some arg)) t r) ∧ Follows (uploadStep opened) disk t u ∧
    chunksOf t = chunks

section Outcome
variable {disk u : Disk} {opened : FResult}

theorem upload_open {path : Bytes} {rc : FResult}
    (h : uploadStep opened disk ⟨.fOpen path (faWrite ||| faOpenAlways), rc⟩ u) :
    rc = opened ∧ (opened ≠ .ok → u = disk) ∧
    (opened = .ok → u.Open ⟨path, 0, false⟩ (disk.previous path) ∧
      u.incoming = disk.incoming ∧
      u.files = Function.update disk.files path (some (disk.previous path))) := by
  obtain ⟨rfl, ⟨rfl, hthere, rfl⟩ | ⟨rfl, hnew, -, rfl⟩ | ⟨hrc, rfl⟩⟩ := h
  · obtain ⟨content, hcontent⟩ := Option.ne_none_iff_exists'.mp hthere
    refine ⟨rfl, by simp, fun _ => ⟨⟨rfl, ?_⟩, rfl, ?_⟩⟩
    · simp [Disk.hold, Disk.previous, hcontent]
    · rw [Disk.previous, hcontent, Option.getD_some, ← hcontent, Function.update_eq_self]
      rfl
  · refine ⟨rfl, by simp, fun _ => ⟨⟨rfl, ?_⟩, rfl, ?_⟩⟩
    · simp [Disk.hold, Disk.store, Disk.previous, hnew]
    · simp [Disk.hold, Disk.store, Disk.previous, hnew]
  · exact ⟨rfl, fun _ => rfl, fun hok => absurd hok hrc⟩

theorem storTrace_ends {conn : Conn} {blocks : List WriteBlock} {last : StorEnd}
    (hstops : last.Stops) (hf : Follows (uploadStep opened) disk (storTrace conn blocks last) u) :
    ∃ ready rc sent, last = .closed ready rc sent := by
  induction blocks generalizing disk with
  | nil =>
    cases last with
    | timeout ready =>
      obtain ⟨v, hselect, -⟩ := hf
      exact absurd hselect.1 (not_lt.mpr hstops)
    | closed ready rc sent => exact ⟨ready, rc, sent, rfl⟩
    | lost ready rc =>
      obtain ⟨v, -, w, hrecv, -⟩ := hf
      exact absurd rfl hrecv.1
  | cons block blocks ih =>
    obtain ⟨v, -, w, -, x, -, hf⟩ := hf
    exact ih hf

@[simp] theorem repliesIn_storTrace (conn : Conn) (blocks : List WriteBlock)
    (ready : SelectResult) (rc : FResult) (sent : Int) :
    repliesIn (storTrace conn blocks (.closed ready rc sent)) =
      [(conn.sockfd, Reply.finished.text)] := by
  induction blocks with
  | nil => rfl
  | cons block blocks ih => exact ih

/-- Files, replies and result of STOR, from what was there and what is uploaded alone. -/
structure Outcome where
  files : Bytes → Option Bytes
  replies : List (Int × Bytes)
  result : Except Fault (Conn × Int)

def storOutcome (opened : FResult) (disk : Disk) (conn : Conn) (arg : Bytes) : Outcome :=
  let path := (fullPath conn.currentdir arg).2
  let conn' := { conn with currentdir := (fullPath conn.currentdir arg).1 }
  if path.length < 256 then
    if opened = .ok then
      { files := Function.update disk.files path
          (some (disk.incoming ++ (disk.previous path).drop disk.incoming.length))
        replies := [(conn.sockfd, (Reply.openingUpload path).text),
          (conn.sockfd, Reply.finished.text)]
        result := .ok (conn', 0) }
    else
      { files := disk.files
        replies := [(conn.sockfd, (Reply.cannotWrite path).text)]
        result := .ok (conn', 0) }
  else { files := disk.files, replies := [], result := .error (.overflow .spareBuf) }

theorem cmdStor_outcome (opened : FResult) (disk : Disk) (fuel : Nat) (conn : Conn)
    (arg : Bytes) :
    Always (cmdStor fuel conn (some arg)) (fun t r => ∀ u, Follows (uploadStep opened) disk t u →
      ⟨u.files, repliesIn t, r⟩ = storOutcome opened disk conn arg) := by
  simp [cmdStor]
  constructor
  · intro hfits rc
    constructor
    · rintro rfl sent blocks last - hgoes hstops k u v hv w ⟨-, -, rfl⟩ hf
      obtain ⟨rfl, -, hok⟩ := upload_open hv
      obtain ⟨hopen, hincoming, hfiles⟩ := hok rfl
      obtain ⟨y, hf, z, hclosed, rfl⟩ := (follows_append _ _ _ _).mp hf
      obtain rfl : u = y := hclosed.2
      obtain ⟨ready, rc, sent', rfl⟩ := storTrace_ends hstops hf
      have hdone := (storTrace_closed _ blocks ready rc sent' hopen (Nat.zero_le _) hgoes hf).1
      rw [hfiles, Function.update_idem, hincoming, overlay_zero] at hdone
      simp [storOutcome, hfits, hdone, StorEnd.ret]
    · rintro hrc k u v hv w ⟨-, -, rfl⟩ rfl
      obtain ⟨rfl, hfailed, -⟩ := upload_open hv
      simp [storOutcome, hfits, hrc, hfailed hrc]
  · intro hlong
    simp [storOutcome, not_lt.mpr hlong]

end Outcome

section Existence

def chunkBlock (chunk : Bytes) : WriteBlock := ⟨⟨1, true⟩, chunk, (.ok, chunk.length)⟩

theorem chunksOf_storTrace (conn : Conn) (chunks : List Bytes) (h : ∀ chunk ∈ chunks, chunk ≠ []) :
    chunksOf (storTrace conn (chunks.map chunkBlock) (.closed ⟨1, true⟩ .ok 0)) = chunks := by
  induction chunks with
  | nil => rfl
  | cons chunk chunks ih =>
    obtain ⟨b, data, rfl⟩ := List.exists_cons_of_ne_nil (h chunk (by simp))
    have hrest := ih (fun c hc => h c (by simp [hc]))
    simp [storTrace, chunkBlock, hrest]

theorem upload_select (opened : FResult) (disk : Disk) (sock : Int) :
    uploadStep opened disk ⟨.select .pasvSockfd sock, ⟨1, true⟩⟩ disk := ⟨Int.one_pos, rfl⟩

theorem storTrace_follows {opened : FResult} {disk : Disk} {file : OpenFile} {content : Bytes}
    (conn : Conn) (chunks : List Bytes) (hopen : disk.Open file content) (herr : file.err = false)
    (hptr : file.fptr ≤ content.length) (hcuts : Cuts disk.incoming chunks)
    (hsize : file.fptr + disk.incoming.length < 2 ^ 32) :
    ∃ u, Follows (uploadStep opened) disk
      (storTrace conn (chunks.map chunkBlock) (.closed ⟨1, true⟩ .ok 0)) u := by
  induction chunks generalizing disk file content with
  | nil =>
    have hend : disk.incoming = [] := hcuts.1.symm
    have hclose : uploadStep opened disk ⟨.recv .pasvSockfd conn.pasvSockfd ftpBufferSize,
        some []⟩ disk := ⟨nofun, .inr (.inl ⟨rfl, hend, rfl⟩)⟩
    exact ⟨disk.hold none, disk, upload_select opened disk _, disk, hclose, disk.hold none,
      ⟨trivial, rfl⟩,
      disk.hold none, ⟨trivial, Int.natCast_nonneg _, rfl⟩, rfl⟩
  | cons chunk chunks ih =>
    have hsized := hcuts.2 chunk (by simp)
    have hin : disk.incoming = chunk ++ chunks.flatten := hcuts.1.symm
    have hlength : disk.incoming.length = chunk.length + chunks.flatten.length := by
      rw [hin, List.length_append]
    have hcontent := disk.small _ content hopen.2
    have hgrown := length_overlay hptr chunk
    have hstored : (overlay content file.fptr chunk).length < 2 ^ 32 := by omega
    have hrecv : uploadStep opened disk ⟨.recv .pasvSockfd conn.pasvSockfd ftpBufferSize,
        some chunk⟩ { disk with incoming := chunks.flatten } :=
      ⟨nofun, .inr (.inr ⟨chunk, chunks.flatten, rfl, List.length_pos_iff.mp hsized.1, hsized.2,
        hin, rfl⟩)⟩
    have hopened : ({ disk with incoming := chunks.flatten } : Disk).Open file content := hopen
    have hwrite := (smooth_write hopened herr hstored (.ok, chunk.length) _).mpr ⟨rfl, rfl⟩
    have hptr' : file.fptr + chunk.length ≤ (overlay content file.fptr chunk).length := by omega
    have hsize' : file.fptr + chunk.length + chunks.flatten.length < 2 ^ 32 := by omega
    have hopen' : ((({ disk with incoming := chunks.flatten } : Disk).store file.path _
        hstored).hold (some { file with fptr := file.fptr + chunk.length })).Open
        { file with fptr := file.fptr + chunk.length } (overlay content file.fptr chunk) :=
      ⟨rfl, Function.update_self ..⟩
    obtain ⟨u, hf⟩ := ih hopen' herr hptr' ⟨rfl, fun c hc => hcuts.2 c (by simp [hc])⟩ hsize'
    exact ⟨u, disk, upload_select opened disk _, _, hrecv, _, hwrite, hf⟩

theorem cmdStor_stores {disk : Disk} {conn : Conn} {arg : Bytes} (hfits : StorFits conn arg)
    (hsize : disk.incoming.length < 2 ^ 32) {chunks : List Bytes}
    (hcuts : Cuts disk.incoming chunks) :
    ∃ t r u, Stores .ok disk conn arg chunks t r u := by
  have hne : ∀ chunk ∈ chunks, chunk ≠ [] := fun chunk hchunk =>
    List.length_pos_iff.mp (hcuts.2 chunk hchunk).1
  set path := (fullPath conn.currentdir arg).2 with hpath
  set inside := { conn with currentdir := (fullPath conn.currentdir arg).1 } with hinside
  set loop := storTrace inside (chunks.map chunkBlock) (.closed ⟨1, true⟩ .ok 0) with hloop
  obtain ⟨v, hopened, hopen, hincoming⟩ := smooth_openAlways disk path
  obtain ⟨u, hf⟩ := @storTrace_follows .ok _ _ _ inside chunks hopen rfl (Nat.zero_le _)
    (by rwa [hincoming]) (by simpa [hincoming] using hsize)
  refine ⟨⟨.fOpen path (faWrite ||| faOpenAlways), FResult.ok⟩ ::
    ⟨.reply .sockfd conn.sockfd (Reply.openingUpload path).text, (0 : Int)⟩ ::
    (loop ++ [⟨.close .pasvSockfd conn.pasvSockfd, (0 : Int)⟩]), .ok (inside, 0), u, ?_, ?_, ?_⟩
  · refine ⟨chunks.length + 1, runs_of_always ?_⟩
    intro post h
    simp [cmdStor] at h
    have hgoes : ∀ block ∈ chunks.map chunkBlock, block.Goes := by
      simpa [WriteBlock.Goes, chunkBlock] using hne
    exact (h.1 hfits .ok).1 rfl 0 (chunks.map chunkBlock) (.closed ⟨1, true⟩ .ok 0)
      (by simp) hgoes Int.one_pos 0
  · have hopen := uploadStep_of_smoothStep _ _ _ ((hopened .ok v).mpr ⟨rfl, rfl⟩)
    refine ⟨v, hopen, v, ⟨trivial, Int.natCast_nonneg _, rfl⟩, (follows_append _ _ _ _).mpr ?_⟩
    exact ⟨u, hf, u, ⟨trivial, rfl⟩, rfl⟩
  · have hchunks := chunksOf_storTrace inside chunks hne
    simp [loop, hchunks]

end Existence

/-- However the client's bytes are cut into what `recv` gives, STOR leaves the same files, sends
the same replies and returns the same; the bytes stand at the start of the target, in order and
in front of what the old content has behind them. Every cutting is received in some run. -/
theorem stor_chunking (opened : FResult) (disk : Disk) (conn : Conn) (arg : Bytes) :
    (∀ chunks chunks' t t' r r' u u', Stores opened disk conn arg chunks t r u →
      Stores opened disk conn arg chunks' t' r' u' →
      u'.files = u.files ∧ repliesIn t' = repliesIn t ∧ r' = r ∧
      (opened = .ok → StorFits conn arg → u.files (fullPath conn.currentdir arg).2 =
        some (disk.incoming ++
          (disk.previous (fullPath conn.currentdir arg).2).drop disk.incoming.length))) ∧
    (opened = .ok → StorFits conn arg → disk.incoming.length < 2 ^ 32 →
      ∀ chunks, Cuts disk.incoming chunks → ∃ t r u, Stores opened disk conn arg chunks t r u) := by
  constructor
  · rintro chunks chunks' t t' r r' u u' ⟨⟨fuel, hrun⟩, hf, -⟩ ⟨⟨fuel', hrun'⟩, hf', -⟩
    have hout := cmdStor_outcome opened disk fuel conn arg t r hrun u hf
    have hout' := cmdStor_outcome opened disk fuel' conn arg t' r' hrun' u' hf'
    have hsame := Outcome.mk.inj (hout'.trans hout.symm)
    refine ⟨hsame.1, hsame.2.1, hsame.2.2, ?_⟩
    intro hok hfits
    have hfiles := congrArg Outcome.files hout
    unfold StorFits at hfits
    simp only [storOutcome, hfits, hok, if_true] at hfiles
    rw [hfiles, Function.update_self]
  · rintro rfl hfits hsize chunks hcuts
    exact cmdStor_stores hfits hsize hcuts

end FtpServer

import FtpServer.Library.Delivery
import FtpServer.Lengths
import FtpServer.Uploads

/-! When a 226 reply is true: LIST, NLST, RETR and STOR under every sequence of outcomes. -/

namespace FtpServer
open Interaction CString Delivery Overlay Transition

@[simp] def dataBlock : CallEvent → Option (Bytes × Nat)
  | ⟨.send .pasvSockfd _ data, sent⟩ => some (data, sent.toNat)
  | ⟨.reply .pasvSockfd _ text, sent⟩ => some (storedReply text, sent.toNat)
  | _ => none

@[simp] def writeBlock : CallEvent → Option (Bytes × Nat)
  | ⟨.fWrite data, answer⟩ => some (data, answer.2)
  | _ => none

@[simp] def receivedBlock : CallEvent → Bytes
  | ⟨.recv _ _ _, some data⟩ => data
  | _ => []

def receivedBytes (t : List CallEvent) : Bytes := t.flatMap receivedBlock

def blocksOf (block : CallEvent → Option (Bytes × Nat)) (t : List CallEvent) :
    List (Bytes × Nat) := t.flatMap fun e => (block e).toList

section Blocks
variable (block : CallEvent → Option (Bytes × Nat)) (e : CallEvent) (t t' : List CallEvent)

@[simp] theorem blocksOf_nil : blocksOf block [] = [] := rfl

@[simp] theorem blocksOf_cons :
    blocksOf block (e :: t) = (block e).toList ++ blocksOf block t := rfl

@[simp] theorem blocksOf_append :
    blocksOf block (t ++ t') = blocksOf block t ++ blocksOf block t' := List.flatMap_append

@[simp] theorem receivedBytes_nil : receivedBytes [] = [] := rfl

@[simp] theorem receivedBytes_cons :
    receivedBytes (e :: t) = receivedBlock e ++ receivedBytes t := rfl

@[simp] theorem receivedBytes_append :
    receivedBytes (t ++ t') = receivedBytes t ++ receivedBytes t' := List.flatMap_append

end Blocks

/-- A call that does its whole work, in the state before it. A read may fail where nothing is
left to read; only STOR depends on `f_close`. -/
@[simp] def Harmless (cmd : Cmd) (disk : Disk) : CallEvent → Prop
  | ⟨.fOpendir _, rc⟩ => rc = .ok
  | ⟨.fReaddir, answer⟩ => answer.1 = .ok ∨ disk.listing = []
  | ⟨.fLseek _, rc⟩ => rc = .ok
  | ⟨.fRead _, answer⟩ =>
    answer.1 = .ok ∨ ∀ file content, disk.Open file content → content.length ≤ file.fptr
  | ⟨.send .pasvSockfd _ data, sent⟩ => sent = data.length
  | ⟨.reply .pasvSockfd _ text, sent⟩ => sent = text.length
  | ⟨.fWrite data, answer⟩ => answer.2 = data.length
  | ⟨.fClose, rc⟩ => cmd = .stor → rc = .ok
  | _ => True

def Unharmed (cmd : Cmd) : Disk → List CallEvent → Disk → Prop :=
  Follows (Where (Harmless cmd) diskStep)

@[simp] theorem unharmed_nil (cmd : Cmd) (disk u : Disk) : Unharmed cmd disk [] u ↔ u = disk :=
  Iff.rfl

theorem unharmed_cons {cmd : Cmd} {disk v u : Disk} {e : CallEvent} {t : List CallEvent}
    (h : diskStep disk e v) :
    Unharmed cmd disk (e :: t) u ↔ Harmless cmd disk e ∧ Unharmed cmd v t u :=
  follows_where_cons diskStep_deterministic h

theorem unharmed_append {cmd : Cmd} {disk v u : Disk} {t t' : List CallEvent}
    (h : Follows diskStep disk t v) :
    Unharmed cmd disk (t ++ t') u ↔ Unharmed cmd disk t v ∧ Unharmed cmd v t' u :=
  follows_where_append diskStep_deterministic h

theorem listTrace_transfers {line : FilInfo → Bytes} (hfits : ∀ fno, (line fno).length < 256)
    (hline : ∀ fno, line fno ≠ []) (cmd : Cmd) {disk u : Disk} {sock : Int}
    {entries : List (FilInfo × Int)} {last : FResult × FilInfo} (hnamed : Named entries)
    (hlast : EndsListing last) (hlisted : ∀ entry ∈ disk.listing, entry.fname ≠ [])
    (hf : Follows diskStep disk (listTrace line .pasvSockfd sock entries last) u) :
    offered (blocksOf dataBlock (listTrace line .pasvSockfd sock entries last)) <+:
        disk.listing.flatMap line ∧
      (delivered (blocksOf dataBlock (listTrace line .pasvSockfd sock entries last)) =
          disk.listing.flatMap line ↔
        Unharmed cmd disk (listTrace line .pasvSockfd sock entries last) u) := by
  induction entries generalizing disk with
  | nil =>
    obtain ⟨v, hread, rfl⟩ := hf
    obtain ⟨rc, fno⟩ := last
    have hempty : disk.listing.flatMap line = [] ↔ disk.listing = [] := by
      rw [List.flatMap_eq_nil_iff]
      constructor
      · intro hall
        apply List.eq_nil_iff_forall_not_mem.mpr
        intro fno' hmem
        exact hline fno' (hall fno' hmem)
      · rintro hnil fno' hmem
        rw [hnil] at hmem
        cases hmem
    have hend : rc = .ok → disk.listing = [] := by
      rintro rfl
      rcases hread with ⟨-, hnil, -⟩ | ⟨-, rest, hcons, -⟩ | ⟨hrc, -⟩
      · exact hnil
      · have hname : fno.fname = [] := hlast.resolve_left (fun hrc => hrc rfl)
        exact absurd hname (hlisted fno (by simp [hcons]))
      · exact absurd rfl hrc
    simp only [listTrace, unharmed_cons hread, Harmless, unharmed_nil, and_true]
    refine ⟨by simp, ?_⟩
    rw [or_iff_right_of_imp hend, ← hempty, eq_comm]
    rfl
  | cons entry entries ih =>
    obtain ⟨v, hread, w, hreply, hf⟩ := hf
    have hname := hnamed entry (by simp)
    obtain ⟨rest, hcons, rfl⟩ : ∃ rest, disk.listing = entry.1 :: rest ∧
        v = { disk with listing := rest } := by
      rcases hread with ⟨-, -, hnil, -⟩ | ⟨-, hrest⟩ | ⟨hrc, -⟩
      · exact absurd hnil hname
      · exact hrest
      · exact absurd rfl hrc
    have hsent : entry.2 ≤ (line entry.1).length := hreply.1
    obtain rfl : w = { disk with listing := rest } := hreply.2
    have hwhole : storedReply (line entry.1) = line entry.1 :=
      List.take_of_length_le (by have := hfits entry.1; omega)
    have hlisted' : ∀ entry ∈ rest, entry.fname ≠ [] :=
      fun e he => hlisted e (by simp [hcons, he])
    obtain ⟨hfront, hiff⟩ := ih (fun e he => hnamed e (by simp [he])) hlisted' hf
    have hpos := List.length_pos_iff.mpr (hline entry.1)
    have htook : (line entry.1).length ≤ entry.2.toNat ↔ entry.2 = (line entry.1).length := by
      omega
    simp only [listTrace, unharmed_cons hread, unharmed_cons hreply, blocksOf_cons, dataBlock,
      Option.toList_none, Option.toList_some, List.nil_append, List.singleton_append, hwhole, hcons,
      List.flatMap_cons]
    refine ⟨(List.prefix_append_right_inj _).mpr hfront, ?_⟩
    rw [delivered_cons_eq_iff hfront, hiff]
    simp [htook]

theorem retrTrace_dead {disk u : Disk} {file : OpenFile} {content : Bytes} {sock : Int}
    {blocks : List ReadBlock} {last : FResult} (hopen : disk.Open file content)
    (herr : file.err = true) (hdata : ∀ block ∈ blocks, block.data ≠ [])
    (hf : Follows diskStep disk (retrTrace sock blocks last) u) : blocks = [] := by
  cases blocks with
  | nil => rfl
  | cons block blocks =>
    obtain ⟨v, ⟨file', content', hopen', hreads⟩, -⟩ := hf
    obtain ⟨rfl, rfl⟩ := hopen.unique hopen'
    rcases hreads with ⟨-, hgood, -⟩ | ⟨-, -, hnil | ⟨hgood, -⟩⟩
    · simp [herr] at hgood
    · exact absurd hnil (hdata block (by simp))
    · simp [herr] at hgood

theorem nothing_left_iff {disk : Disk} {file : OpenFile} {content : Bytes}
    (hopen : disk.Open file content) :
    (∀ file' content', disk.Open file' content' → content'.length ≤ file'.fptr) ↔
      content.drop file.fptr = [] := by
  rw [List.drop_eq_nil_iff]
  constructor
  · intro hall
    exact hall file content hopen
  · intro hleft file' content' hopen'
    obtain ⟨rfl, rfl⟩ := hopen.unique hopen'
    exact hleft

theorem retrTrace_transfers (cmd : Cmd) {disk u : Disk} {file : OpenFile} {content : Bytes}
    {sock : Int} {blocks : List ReadBlock} {last : FResult} (hopen : disk.Open file content)
    (hdata : ∀ block ∈ blocks, block.data ≠ [])
    (hf : Follows diskStep disk (retrTrace sock blocks last) u) :
    offered (blocksOf dataBlock (retrTrace sock blocks last)) <+: content.drop file.fptr ∧
      (delivered (blocksOf dataBlock (retrTrace sock blocks last)) = content.drop file.fptr ↔
        Unharmed cmd disk (retrTrace sock blocks last) u) := by
  induction blocks generalizing disk file with
  | nil =>
    obtain ⟨v, hread, rfl⟩ := hf
    have hend : last = .ok → content.drop file.fptr = [] := by
      rintro rfl
      obtain ⟨file', content', hopen', hreads⟩ := hread
      obtain ⟨rfl, rfl⟩ := hopen.unique hopen'
      rcases hreads with ⟨-, -, htake, -⟩ | ⟨hrc, -⟩
      · have hlen := congrArg List.length htake
        simp only [List.length_nil, List.length_take, ftpBufferSize] at hlen
        exact List.length_eq_zero_iff.mp (by omega)
      · exact absurd rfl hrc
    simp only [retrTrace, unharmed_cons hread, Harmless, unharmed_nil, and_true]
    refine ⟨by simp, ?_⟩
    rw [nothing_left_iff hopen, or_iff_right_of_imp hend, eq_comm]
    rfl
  | cons block blocks ih =>
    obtain ⟨v, hread, w, hsend, hf⟩ := hf
    have hsent : block.sent ≤ block.data.length := hsend.1
    obtain rfl : w = v := hsend.2
    have hpos := List.length_pos_iff.mpr (hdata block (by simp))
    have hdata' : ∀ b ∈ blocks, b.data ≠ [] := fun b hb => hdata b (by simp [hb])
    have htook : block.data.length ≤ block.sent.toNat ↔ block.sent = block.data.length := by
      omega
    simp only [retrTrace, unharmed_cons hread, unharmed_cons hsend, blocksOf_cons, dataBlock,
      Option.toList_none, Option.toList_some, List.nil_append, List.singleton_append, Harmless,
      nothing_left_iff hopen]
    obtain ⟨file', content', hopen', hreads⟩ := hread
    obtain ⟨rfl, rfl⟩ := hopen.unique hopen'
    rcases hreads with ⟨hrc, herr, hblock, rfl⟩ | ⟨hrc, rfl, hnil | ⟨herr, hfront, hshort⟩⟩
    · have hsplit : content'.drop file'.fptr =
          block.data ++ content'.drop (file'.fptr + block.data.length) := by
        rw [← List.drop_drop, List.prefix_iff_eq_append.mp]
        rw [hblock]
        exact List.take_prefix _ _
      have hnext : (disk.hold (some { file' with fptr := file'.fptr + block.data.length })).Open
          { file' with fptr := file'.fptr + block.data.length } content' := ⟨rfl, hopen.2⟩
      obtain ⟨hoffered, hiff⟩ := ih hnext hdata' hf
      rw [hsplit]
      refine ⟨(List.prefix_append_right_inj _).mpr hoffered, ?_⟩
      rw [delivered_cons_eq_iff hoffered, hiff, htook]
      simp [hrc]
    · exact absurd hnil (hdata block (by simp))
    · -- the read fell short: nothing more is read, and the rest is missing
      have hdead : (disk.hold (some { file' with
          fptr := file'.fptr + block.data.length, err := true })).Open
          { file' with fptr := file'.fptr + block.data.length, err := true } content' :=
        ⟨rfl, hopen.2⟩
      obtain rfl : blocks = [] := retrTrace_dead hdead rfl hdata' hf
      have hmissing : block.data.length < (content'.drop file'.fptr).length := by
        rw [List.length_take] at hshort
        omega
      have hleft : content'.drop file'.fptr ≠ [] := by
        rintro hnil
        rw [hnil] at hmissing
        simp at hmissing
      refine ⟨by simpa [retrTrace] using hfront, ?_⟩
      simp only [hrc, hleft, or_self, false_and, iff_false]
      intro hall
      have hlen := congrArg List.length hall
      simp only [retrTrace, blocksOf_cons, blocksOf_nil, dataBlock, Option.toList_none,
        delivered_cons, delivered_nil, List.append_nil, List.length_take] at hlen
      omega

theorem storTrace_stores {disk u : Disk} (conn : Conn) (blocks : List WriteBlock)
    (ready : SelectResult) (rc : FResult) (sent : Int)
    (hf : Follows diskStep disk (storTrace conn blocks (.closed ready rc sent)) u) :
    offered (blocksOf writeBlock (storTrace conn blocks (.closed ready rc sent))) =
        receivedBytes (storTrace conn blocks (.closed ready rc sent)) ∧
      ((delivered (blocksOf writeBlock (storTrace conn blocks (.closed ready rc sent))) =
          receivedBytes (storTrace conn blocks (.closed ready rc sent)) ∧ rc = .ok) ↔
        Unharmed .stor disk (storTrace conn blocks (.closed ready rc sent)) u) := by
  induction blocks generalizing disk with
  | nil =>
    obtain ⟨v, hselect, w, hrecv, x, hclose, y, hreply, rfl⟩ := hf
    simp only [storTrace, unharmed_cons hselect, unharmed_cons hrecv, unharmed_cons hclose,
      unharmed_cons hreply]
    simp
  | cons block blocks ih =>
    obtain ⟨v, hselect, w, hrecv, x, hwrite, hf⟩ := hf
    obtain ⟨hoffered, hiff⟩ := ih hf
    have hwritten : block.written.2 ≤ block.data.length := by
      obtain ⟨file, content, hopen, hle, -⟩ := hwrite
      exact hle
    have htook : block.data.length ≤ block.written.2 ↔ block.written.2 = block.data.length := by
      omega
    simp only [storTrace, unharmed_cons hselect, unharmed_cons hrecv, unharmed_cons hwrite,
      blocksOf_cons, writeBlock, receivedBytes_cons, receivedBlock, Option.toList_none,
      Option.toList_some, List.nil_append, List.singleton_append, Harmless, true_and]
    refine ⟨by rw [offered_cons, hoffered], ?_⟩
    rw [delivered_cons_eq_iff (hoffered ▸ List.prefix_refl _), htook, ← hiff, and_assoc]

def Listed (disk : Disk) (name : Bytes) (line : FilInfo → Bytes) (t : List CallEvent) : Prop :=
  (⟨.fOpendir name, FResult.ok⟩ : CallEvent) ∈ t ∧
    ∃ dir, disk.dirs name = some dir ∧
      delivered (blocksOf dataBlock t) = dir.entries.flatMap line

/-- The payload of a transfer command went through as a whole. -/
def Transferred (disk : Disk) (conn : Conn) (parameter : Option Bytes) (t : List CallEvent) :
    Cmd → Prop
  | .list => Listed disk (nextDir conn.currentdir .list none) listLine t
  | .nlst => Listed disk conn.currentdir nameLine t
  | .retr => ∃ arg content, parameter = some arg ∧
    disk.files (fullPath conn.currentdir arg).2 = some content ∧
    delivered (blocksOf dataBlock t) = content.drop (startPosition conn.offset content)
  | .stor => delivered (blocksOf writeBlock t) = receivedBytes t ∧
    (⟨.fClose, FResult.ok⟩ : CallEvent) ∈ t
  | _ => True

def ClosedByClient (t : List CallEvent) : Prop :=
  ∃ via sock len, (⟨.recv via sock len, some []⟩ : CallEvent) ∈ t

/-- No call falls short; an upload that is not ended by the client is not answered 226, and
nothing is asked of it. -/
def Whole (cmd : Cmd) (disk : Disk) (t : List CallEvent) (u : Disk) : Prop :=
  (cmd = .stor → ClosedByClient t) → Unharmed cmd disk t u

def TruthfulIff (disk : Disk) (conn : Conn) (parameter : Option Bytes) (cmd : Cmd)
    (t : List CallEvent) : Prop :=
  ∀ u, Follows diskStep disk t u →
    ((Answered226 conn.sockfd t → Transferred disk conn parameter t cmd) ↔ Whole cmd disk t u)

theorem listed_iff {line : FilInfo → Bytes} (hfits : ∀ fno, (line fno).length < 256)
    (hline : ∀ fno, line fno ≠ []) (cmd : Cmd) {disk u : Disk} {name opening closing : Bytes}
    {sockfd sock first closed final : Int} {entries : List (FilInfo × Int)}
    {last : FResult × FilInfo} {t : List CallEvent} (hnamed : Named entries)
    (hlast : EndsListing last)
    (ht : t = ⟨.reply .sockfd sockfd opening, first⟩ :: ⟨.fOpendir name, FResult.ok⟩ ::
      (listTrace line .pasvSockfd sock entries last ++
        [⟨.close .pasvSockfd sock, closed⟩, ⟨.reply .sockfd sockfd closing, final⟩]))
    (hf : Follows diskStep disk t u) : Listed disk name line t ↔ Unharmed cmd disk t u := by
  subst ht
  obtain ⟨v, hopening, w, hopendir, hf⟩ := hf
  obtain ⟨x, hloop, y, hclose, z, hclosing, rfl⟩ := (follows_append _ _ _ _).mp hf
  rw [unharmed_cons hopening, unharmed_cons hopendir, unharmed_append hloop,
    unharmed_cons hclose, unharmed_cons hclosing]
  obtain rfl : v = disk := hopening.2
  obtain ⟨dir, hdir, rfl⟩ : ∃ dir, v.dirs name = some dir ∧
      w = { v with listing := dir.entries } := by
    rcases hopendir with ⟨-, hdir⟩ | ⟨hrc, -⟩
    · exact hdir
    · exact absurd rfl hrc
  have htransfers := (listTrace_transfers hfits hline cmd hnamed hlast dir.named hloop).2
  simp [Listed, hdir, htransfers]

theorem refused_iff {line : FilInfo → Bytes} (cmd : Cmd) {disk u : Disk}
    {name opening refusal closing : Bytes} {sockfd sock first refused closed final : Int}
    {rc : FResult} {t : List CallEvent} (hrc : rc ≠ .ok)
    (ht : t = [⟨.reply .sockfd sockfd opening, first⟩, ⟨.fOpendir name, rc⟩,
      ⟨.reply .pasvSockfd sock refusal, refused⟩, ⟨.close .pasvSockfd sock, closed⟩,
      ⟨.reply .sockfd sockfd closing, final⟩])
    (hf : Follows diskStep disk t u) : Listed disk name line t ↔ Unharmed cmd disk t u := by
  subst ht
  obtain ⟨v, hopening, w, hopendir, hf⟩ := hf
  rw [unharmed_cons hopening, unharmed_cons hopendir]
  simp [Listed, hrc, eq_comm]

theorem retr_opened {disk u : Disk} {path : Bytes} {size : UInt32} {closed : FResult}
    {t : List CallEvent}
    (hf : Follows diskStep disk (⟨.fOpen path faRead, FResult.ok⟩ :: ⟨.fSize, size⟩ ::
      ⟨.fClose, closed⟩ :: ⟨.fOpen path faRead, FResult.ok⟩ :: t) u) :
    ∃ content v, disk.files path = some content ∧ size.toNat = content.length ∧
      v.Open ⟨path, 0, false⟩ content ∧ Follows diskStep v t u ∧
      (Unharmed .retr disk (⟨.fOpen path faRead, FResult.ok⟩ :: ⟨.fSize, size⟩ ::
        ⟨.fClose, closed⟩ :: ⟨.fOpen path faRead, FResult.ok⟩ :: t) u ↔ Unharmed .retr v t u) := by
  have hmode : ¬faRead &&& faOpenAlways ≠ 0 := by decide
  have hopens : ∀ {disk v : Disk}, diskStep disk ⟨.fOpen path faRead, FResult.ok⟩ v →
      v = disk.hold (some ⟨path, 0, false⟩) := by
    rintro disk v (⟨-, -, rfl⟩ | ⟨-, -, hmode', -⟩ | ⟨hrc, -⟩)
    · rfl
    · exact absurd hmode' hmode
    · exact absurd rfl hrc
  obtain ⟨v, hopen, w, hsize, x, hclose, y, hagain, hf⟩ := hf
  rw [unharmed_cons hopen, unharmed_cons hsize, unharmed_cons hclose, unharmed_cons hagain]
  obtain rfl := hopens hopen
  obtain rfl := hopens hagain
  obtain ⟨file, content, hfile, hlen, rfl⟩ := hsize
  obtain rfl : x = _ := hclose
  obtain rfl : file = ⟨path, 0, false⟩ := by simpa [Disk.hold] using hfile.1.symm
  refine ⟨content, _, hfile.2, hlen, ?_, hf, by simp⟩
  exact ⟨rfl, hfile.2⟩

theorem retr_sent_iff {disk u : Disk} {file : OpenFile} {content closing : Bytes}
    {sockfd sock final closed : Int} {rc last : FResult} {blocks : List ReadBlock}
    (hopen : disk.Open file content) (hdata : ∀ block ∈ blocks, block.data ≠ [])
    (hf : Follows diskStep disk (retrTrace sock blocks last ++
      [⟨.reply .sockfd sockfd closing, final⟩, ⟨.fClose, rc⟩, ⟨.close .pasvSockfd sock, closed⟩])
      u) :
    delivered (blocksOf dataBlock (retrTrace sock blocks last)) = content.drop file.fptr ↔
      Unharmed .retr disk (retrTrace sock blocks last ++
        [⟨.reply .sockfd sockfd closing, final⟩, ⟨.fClose, rc⟩,
          ⟨.close .pasvSockfd sock, closed⟩]) u := by
  obtain ⟨v, hloop, w, hclosing, x, hclose, y, hclosed, rfl⟩ := (follows_append _ _ _ _).mp hf
  rw [unharmed_append hloop, unharmed_cons hclosing, unharmed_cons hclose,
    unharmed_cons hclosed, (retrTrace_transfers .retr hopen hdata hloop).2]
  simp

theorem restarts_size {offset size : UInt32} {content : Bytes}
    (hsize : size.toNat = content.length) :
    restarts offset (intOfDword size) ↔ 0 < offset.toNat ∧ offset.toNat < content.length := by
  rw [restarts, dwordOfInt_intOfDword, UInt32.lt_iff_toNat_lt, UInt32.lt_iff_toNat_lt, hsize]
  rfl

section Retrieved
variable {disk u : Disk} {conn : Conn} {arg opening closing : Bytes} {size : UInt32}
  {closed sought rc last : FResult} {sockfd sock first final shut : Int}
  {blocks : List ReadBlock} {t : List CallEvent}

theorem retr_partial_iff (hrestarts : restarts conn.offset (intOfDword size))
    (hdata : ∀ block ∈ blocks, block.data ≠ [])
    (ht : t = ⟨.fOpen (fullPath conn.currentdir arg).2 faRead, FResult.ok⟩ ::
      ⟨.fSize, size⟩ :: ⟨.fClose, closed⟩ ::
      ⟨.fOpen (fullPath conn.currentdir arg).2 faRead, FResult.ok⟩ ::
      ⟨.fLseek conn.offset, sought⟩ :: ⟨.reply .sockfd sockfd opening, first⟩ ::
      (retrTrace sock blocks last ++ [⟨.reply .sockfd sockfd closing, final⟩, ⟨.fClose, rc⟩,
        ⟨.close .pasvSockfd sock, shut⟩]))
    (hf : Follows diskStep disk t u) :
    Transferred disk conn (some arg) t .retr ↔ Unharmed .retr disk t u := by
  subst ht
  obtain ⟨content, v, hfile, hsize, hopen, hf, hiff⟩ := retr_opened hf
  obtain ⟨w, hseek, x, hopening, hf⟩ := hf
  rw [hiff, unharmed_cons hseek, unharmed_cons hopening]
  obtain rfl : x = w := hopening.2
  have hin := (restarts_size hsize).mp hrestarts
  have hstart : startPosition conn.offset content = conn.offset.toNat := if_pos hin
  have hmin : min conn.offset.toNat content.length = conn.offset.toNat := by omega
  obtain ⟨file, content', hopen', hseeks⟩ := hseek
  obtain ⟨rfl, rfl⟩ := hopen.unique hopen'
  rcases hseeks with ⟨hrc, -, rfl⟩ | ⟨hrc, rfl⟩
  · have hok : sought = .ok := hrc
    have hsought : (v.hold (some ⟨(fullPath conn.currentdir arg).2,
        min conn.offset.toNat content'.length, false⟩)).Open _ content' := ⟨rfl, hopen.2⟩
    rw [← retr_sent_iff hsought hdata hf]
    simp [Transferred, hfile, hok, hstart, hmin]
  · -- the seek failed: nothing can be read, and something is missing
    have hbad : sought ≠ .ok := hrc
    have hbroken : (v.hold (some ⟨(fullPath conn.currentdir arg).2, 0, true⟩)).Open _
        content' := ⟨rfl, hopen.2⟩
    obtain ⟨y, hloop, -⟩ := (follows_append _ _ _ _).mp hf
    obtain rfl : blocks = [] := retrTrace_dead hbroken rfl hdata hloop
    simp [Transferred, hfile, hbad, hstart, retrTrace]
    omega

theorem retr_whole_iff (hwhole : ¬restarts conn.offset (intOfDword size))
    (hdata : ∀ block ∈ blocks, block.data ≠ [])
    (ht : t = ⟨.fOpen (fullPath conn.currentdir arg).2 faRead, FResult.ok⟩ ::
      ⟨.fSize, size⟩ :: ⟨.fClose, closed⟩ ::
      ⟨.fOpen (fullPath conn.currentdir arg).2 faRead, FResult.ok⟩ ::
      ⟨.reply .sockfd sockfd opening, first⟩ ::
      (retrTrace sock blocks last ++ [⟨.reply .sockfd sockfd closing, final⟩, ⟨.fClose, rc⟩,
        ⟨.close .pasvSockfd sock, shut⟩]))
    (hf : Follows diskStep disk t u) :
    Transferred disk conn (some arg) t .retr ↔ Unharmed .retr disk t u := by
  subst ht
  obtain ⟨content, v, hfile, hsize, hopen, hf, hiff⟩ := retr_opened hf
  obtain ⟨x, hopening, hf⟩ := hf
  rw [hiff, unharmed_cons hopening]
  obtain rfl : x = v := hopening.2
  have hstart : startPosition conn.offset content = 0 :=
    if_neg (hwhole ∘ (restarts_size hsize).mpr)
  rw [← retr_sent_iff hopen hdata hf]
  simp [Transferred, hfile, hstart]

end Retrieved

theorem unharmed_of_forall {cmd : Cmd} {disk u : Disk} {t : List CallEvent}
    (h : ∀ e ∈ t, ∀ v, Harmless cmd v e) (hf : Follows diskStep disk t u) :
    Unharmed cmd disk t u := by
  induction t generalizing disk with
  | nil => exact hf
  | cons e t ih =>
    obtain ⟨v, hstep, hf⟩ := hf
    rw [unharmed_cons hstep]
    exact ⟨h e (by simp) disk, ih (fun e he => h e (by simp [he])) hf⟩

theorem truthfulIff_unanswered {disk : Disk} {conn : Conn} {parameter : Option Bytes} {cmd : Cmd}
    {t : List CallEvent} (h : ¬Answered226 conn.sockfd t)
    (hcalls : (∀ e ∈ t, ∀ v, Harmless cmd v e) ∨ cmd = .stor ∧ ¬ClosedByClient t) :
    TruthfulIff disk conn parameter cmd t := by
  intro u hf
  refine iff_of_true (fun hanswered => absurd hanswered h) ?_
  intro hclosed
  cases hcalls with
  | inl hall => exact unharmed_of_forall hall hf
  | inr hstor => exact absurd (hclosed hstor.1) hstor.2

theorem truthfulIff_answered {disk : Disk} {conn : Conn} {parameter : Option Bytes} {cmd : Cmd}
    {t : List CallEvent} (hanswered : Answered226 conn.sockfd t)
    (hclosed : cmd = .stor → ClosedByClient t)
    (h : ∀ u, Follows diskStep disk t u →
      (Transferred disk conn parameter t cmd ↔ Unharmed cmd disk t u)) :
    TruthfulIff disk conn parameter cmd t := by
  intro u hf
  have hiff := h u hf
  unfold Whole
  tauto

section Commands
variable (disk : Disk) (fuel : Nat) (conn : Conn) (parameter : Option Bytes)

theorem cmdList_truthful :
    Always (cmdList fuel conn) (fun t _ => TruthfulIff disk conn parameter .list t) := by
  simp [cmdList, doFullList]
  intro first rc
  constructor
  · rintro rfl entries last fno - hnamed hlast closed final
    apply truthfulIff_answered (by simp) (by simp)
    intro u hf
    exact listed_iff length_listLine_lt listLine_ne_nil .list hnamed hlast rfl hf
  · intro hrc refused closed final
    apply truthfulIff_answered (by simp) (by simp)
    intro u hf
    exact refused_iff .list hrc rfl hf

theorem cmdNlst_truthful :
    Always (cmdNlst fuel conn) (fun t _ => TruthfulIff disk conn parameter .nlst t) := by
  simp [cmdNlst, doSimpleList]
  intro first rc
  constructor
  · rintro rfl entries last fno - hnamed hlast closed final
    apply truthfulIff_answered (by simp) (by simp)
    intro u hf
    exact listed_iff length_nameLine_lt nameLine_ne_nil .nlst hnamed hlast rfl hf
  · intro hrc refused closed final
    apply truthfulIff_answered (by simp) (by simp)
    intro u hf
    exact refused_iff .nlst hrc rfl hf

theorem cmdRetr_truthful (buf arg : Bytes) :
    Always (cmdRetr fuel conn buf (some arg))
      (fun t _ => TruthfulIff disk conn (some arg) .retr t) := by
  simp [cmdRetr, retrSeek]
  refine ⟨fun _ => ⟨fun _ => ⟨?_, ?_⟩, ?_⟩, ?_⟩
  · intro size closed
    refine ⟨?_, fun _ rc => ⟨?_, ?_⟩⟩
    · intro _ sent
      exact truthfulIff_unanswered (by simp) (.inl (by simp))
    · rintro rfl
      constructor
      · intro hrestarts sought first blocks last _ hdata final rc shut
        apply truthfulIff_answered (by simp) (by simp)
        intro u hf
        exact retr_partial_iff hrestarts hdata rfl hf
      · intro hwhole first blocks last _ hdata final rc shut
        apply truthfulIff_answered (by simp) (by simp)
        intro u hf
        exact retr_whole_iff hwhole hdata rfl hf
    · intro _
      exact truthfulIff_unanswered (by simp) (.inl (by simp))
  · intro rc _ sent
    exact truthfulIff_unanswered (by simp) (.inl (by simp))
  · intro _
    exact truthfulIff_unanswered (by simp) (.inl (by simp))
  · intro _
    exact truthfulIff_unanswered (by simp) (.inl (by simp))

theorem closedByClient_storTrace (conn : Conn) {blocks : List WriteBlock} {last : StorEnd}
    (hgoes : ∀ block ∈ blocks, block.Goes) :
    ClosedByClient (storTrace conn blocks last) ↔
      ∃ ready rc sent, last = .closed ready rc sent := by
  induction blocks with
  | nil => cases last <;> simp [ClosedByClient, storTrace]
  | cons block blocks ih =>
    rw [← ih (fun b hb => hgoes b (by simp [hb]))]
    have hdata := (hgoes block (by simp)).2
    simp [ClosedByClient, storTrace, eq_comm, hdata]

theorem fClose_mem_storTrace {conn : Conn} {blocks : List WriteBlock} {ready : SelectResult}
    {rc : FResult} {sent : Int} (result : FResult) :
    (⟨.fClose, result⟩ : CallEvent) ∈ storTrace conn blocks (.closed ready rc sent) ↔
      rc = result := by
  induction blocks with
  | nil => simp [storTrace, eq_comm]
  | cons block blocks ih => simp [storTrace, ih]

theorem stored_iff {disk u : Disk} {conn conn' : Conn} {arg path opening : Bytes} {mode : UInt8}
    {first sent closed : Int} {rc : FResult} {ready : SelectResult} {blocks : List WriteBlock}
    {sockfd sock : Int} {t : List CallEvent}
    (ht : t = ⟨.fOpen path mode, FResult.ok⟩ :: ⟨.reply .sockfd sockfd opening, first⟩ ::
      (storTrace conn' blocks (.closed ready rc sent) ++ [⟨.close .pasvSockfd sock, closed⟩]))
    (hf : Follows diskStep disk t u) :
    Transferred disk conn (some arg) t .stor ↔ Unharmed .stor disk t u := by
  subst ht
  obtain ⟨v, hopen, w, hopening, hf⟩ := hf
  obtain ⟨x, hloop, y, hclosed, rfl⟩ := (follows_append _ _ _ _).mp hf
  have hstores := (storTrace_stores conn' blocks ready rc sent hloop).2
  rw [unharmed_cons hopen, unharmed_cons hopening, unharmed_append hloop, unharmed_cons hclosed,
    ← hstores]
  simp [Transferred, fClose_mem_storTrace]

theorem cmdStor_truthful (arg : Bytes) :
    Always (cmdStor fuel conn (some arg))
      (fun t _ => TruthfulIff disk conn (some arg) .stor t) := by
  simp [cmdStor]
  refine ⟨fun _ rc => ⟨?_, ?_⟩, ?_⟩
  · rintro rfl first blocks last - hgoes - closed
    have hclosed := @closedByClient_storTrace
      { conn with currentdir := (fullPath conn.currentdir arg).1 } blocks last hgoes
    by_cases hend : ∃ ready rc sent, last = .closed ready rc sent
    · apply truthfulIff_answered (by simp [hend])
      · intro _
        simpa [ClosedByClient] using hclosed.mpr hend
      · intro u hf
        obtain ⟨ready, rc, sent, rfl⟩ := hend
        exact stored_iff rfl hf
    · apply truthfulIff_unanswered (by simp [hend])
      refine .inr ⟨rfl, ?_⟩
      simpa [ClosedByClient] using hend ∘ hclosed.mp
  · intro hrc sent
    apply truthfulIff_unanswered (by simp)
    exact .inr ⟨rfl, by simp [ClosedByClient]⟩
  · intro _
    apply truthfulIff_unanswered (by simp)
    exact .inr ⟨rfl, by simp [ClosedByClient]⟩

end Commands

theorem dispatch_truthful (disk : Disk) (fuel : Nat) (conn : Conn) (buf : Bytes) {cmd : Cmd}
    (parameter : Option Bytes) (hcmd : Transfers cmd) :
    Always (dispatch fuel conn buf cmd parameter)
      (fun t _ => TruthfulIff disk conn parameter cmd t) := by
  cases cmd with
  | list => exact cmdList_truthful disk fuel conn parameter
  | nlst => exact cmdNlst_truthful disk fuel conn parameter
  | retr =>
    cases parameter with
    | none =>
      simp [dispatch, cmdRetr, truthfulIff_unanswered]
    | some arg => exact cmdRetr_truthful disk fuel conn buf arg
  | stor =>
    cases parameter with
    | none => simp [dispatch, cmdStor, truthfulIff_unanswered]
    | some arg => exact cmdStor_truthful disk fuel conn arg
  | _ => exact hcmd.elim

theorem ftpProcessRequest_truthful (disk : Disk) (fuel : Nat) {conn : Conn} {buf : Bytes}
    {cmd : Cmd} {parameter : Option Bytes} (hcmd : Transfers cmd)
    (hparse : parseRequest buf = (cmd, parameter)) :
    Always (ftpProcessRequest fuel conn buf)
      (fun t _ => TruthfulIff disk conn parameter cmd t) := by
  rw [always_ftpProcessRequest, hparse]
  refine ⟨(dispatch_truthful disk fuel conn _ parameter hcmd).mono ?_, ?_⟩
  · rintro t - htruthful u ⟨v, hmalloc, hf⟩
    obtain rfl : v = disk := hmalloc
    have hiff := htruthful u hf
    have hmalloc : diskStep v ⟨.malloc, true⟩ v := rfl
    have hunharmed := @unharmed_cons cmd _ _ u _ t hmalloc
    have hclosed : ClosedByClient (⟨.malloc, true⟩ :: t) ↔ ClosedByClient t := by
      simp [ClosedByClient]
    have htransferred : Transferred v conn parameter (⟨.malloc, true⟩ :: t) cmd ↔
        Transferred v conn parameter t cmd := by
      cases cmd <;> simp [Transferred, Listed]
    unfold Whole at hiff ⊢
    rw [htransferred, hunharmed, hclosed]
    simpa using hiff
  · exact truthfulIff_unanswered (by simp) (.inl (by simp))

/-- A 226 reply is true exactly in the runs in which no call falls short: the directory can be
opened and read, the file can be positioned and read, `send` and `f_write` take all they are
given, and `f_close` commits an upload. -/
theorem answered226_truthful_iff {fuel : Nat} {conn : Conn} {buf : Bytes} {cmd : Cmd}
    {parameter : Option Bytes} {disk u : Disk} {t : List CallEvent}
    {r : Except Fault (Conn × Int)} (hcmd : Transfers cmd)
    (hparse : parseRequest buf = (cmd, parameter))
    (hrun : Runs (ftpProcessRequest fuel conn buf) t r) (hf : Follows diskStep disk t u) :
    (Answered226 conn.sockfd t → Transferred disk conn parameter t cmd) ↔ Whole cmd disk t u :=
  ftpProcessRequest_truthful disk fuel hcmd hparse t r hrun u hf

def listBuf : Bytes := bytes "LIST\r\n"

theorem parseRequest_listBuf : parseRequest listBuf = (.list, none) := rfl

def entryOfOneByte : FilInfo where
  fsize := 1
  fdate := 0
  fattrib := 0
  fname := bytes "a"
  fname_length := by decide
  no_space := by decide

def oneEntry : Disk :=
  { oneByte with
    dirs := Function.update (fun _ => none) (bytes "/") (some ⟨[entryOfOneByte], by decide⟩) }

def listCalls : List CallEvent :=
  [⟨.malloc, true⟩, ⟨.reply .sockfd 1 Reply.openingList.text, 51⟩,
    ⟨.fOpendir (bytes "/"), FResult.diskErr⟩,
    ⟨.reply .pasvSockfd 0 Reply.listFailed.text, 27⟩, ⟨.close .pasvSockfd 0, 0⟩,
    ⟨.reply .sockfd 1 Reply.transferComplete.text, 24⟩]

theorem runs_listCalls :
    Runs (ftpProcessRequest 1 justAccepted listBuf) listCalls (.ok (justAccepted, 0)) :=
  runs_of_replay rfl

theorem follows_listCalls : Follows diskStep oneEntry listCalls oneEntry := by
  refine ⟨oneEntry, rfl, oneEntry, ⟨?_, rfl⟩, oneEntry, .inr ⟨?_, rfl⟩, oneEntry, ⟨?_, rfl⟩,
    oneEntry, rfl, oneEntry, ⟨?_, rfl⟩, rfl⟩
  all_goals decide

theorem answered226_truthful_iff_list :
    (Answered226 justAccepted.sockfd listCalls →
        Transferred oneEntry justAccepted none listCalls .list) ↔
      Whole .list oneEntry listCalls oneEntry :=
  answered226_truthful_iff trivial parseRequest_listBuf runs_listCalls follows_listCalls

theorem failed_listing_answered226 :
    ¬∀ fuel conn buf cmd parameter disk u t r, Transfers cmd →
      parseRequest buf = (cmd, parameter) → Runs (ftpProcessRequest fuel conn buf) t r →
      Follows diskStep disk t u → Answered226 conn.sockfd t →
      Transferred disk conn parameter t cmd := by
  intro h
  have hlisted := h 1 justAccepted listBuf .list none oneEntry oneEntry listCalls
    (.ok (justAccepted, 0)) trivial parseRequest_listBuf runs_listCalls follows_listCalls
    (by simp [listCalls, justAccepted])
  simp [Transferred, Listed, listCalls] at hlisted

end FtpServer

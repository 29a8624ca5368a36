import FtpServer.Parents
import FtpServer.Listings
import FtpServer.Opening

/-! LIST and NLST of one session on a FatFs volume. Only LIST cuts a trailing slash off
`currentdir`, and FatFs rejects the empty name behind it. -/

namespace FtpServer
open Interaction CString Components Transition

section Environment

/-- FatFs answers as it resolves paths on the volume; the state is what `f_readdir` has left
to give. The sockets answer what they like. -/
def Volume.answers (v : Volume) (left left' : List FilInfo) : (c : Call) → c.Answer → Prop
  | .fOpendir path, rc =>
    match openDir v path with
    | .ok dirs => rc = .ok ∧ left' = readable dirs
    | .error _ => rc ≠ .ok ∧ left' = left
  | .fReaddir, (rc, fno) =>
    rc = .ok ∧ (left = [] ∧ fno.fname = [] ∧ left' = [] ∨ left = fno :: left')
  | _, _ => left' = left

def volumeStep (v : Volume) (left : List FilInfo) (e : CallEvent) (left' : List FilInfo) : Prop :=
  v.answers left left' e.call e.answer

theorem volume_readsEntries (v : Volume) : ReadsEntries (volumeStep v) id := by
  refine ⟨fun left hend => ⟨⟨(.ok, noEntry), [], rfl, .inl ⟨hend, rfl, rfl⟩⟩, ?_⟩,
    fun left fno rest hnext => ⟨⟨(.ok, fno), rest, rfl, .inr hnext⟩, ?_⟩,
    fun left via sock text => ⟨⟨0, left, rfl⟩, fun sent u hstep => hstep⟩⟩
  · rintro answer u ⟨-, ⟨-, hname, -⟩ | hcons⟩
    · exact .inr hname
    · exact absurd (hend.symm.trans hcons) (by simp)
  · rintro answer u ⟨hok, ⟨hnil, -⟩ | hcons⟩
    · exact absurd (hnext.symm.trans hnil) (by simp)
    · obtain ⟨hfno, hrest⟩ := List.cons.inj (hnext.symm.trans hcons)
      exact ⟨Prod.ext hok hfno.symm, hrest.symm⟩

end Environment

section Names

@[simp] def dataLine (e : CallEvent) : Option Bytes :=
  match e.call with
  | .reply .pasvSockfd _ text => some text
  | _ => none

def dataLines (t : List CallEvent) : List Bytes := t.flatMap fun e => (dataLine e).toList

@[simp] theorem dataLines_nil : dataLines [] = [] := rfl

@[simp] theorem dataLines_cons (e : CallEvent) (t : List CallEvent) :
    dataLines (e :: t) = (dataLine e).toList ++ dataLines t := rfl

@[simp] theorem dataLines_append (t t' : List CallEvent) :
    dataLines (t ++ t') = dataLines t ++ dataLines t' := List.flatMap_append

@[simp] theorem dataLines_listTrace (line : FilInfo → Bytes) (sock : Int)
    (entries : List (FilInfo × Int)) (last : FResult × FilInfo) :
    dataLines (listTrace line .pasvSockfd sock entries last) =
      (entries.map Prod.fst).map line := by
  induction entries with
  | nil => rfl
  | cons entry entries ih => simp [listTrace, ih]

def listedName (line : Bytes) : Option Bytes :=
  (comps (byte ' ') (line.take (line.length - 2))).getLast?

theorem listedName_last {fno : FilInfo} (hname : fno.fname ≠ []) (pre : Bytes) :
    listedName (pre ++ bytes " " ++ fno.fname ++ bytes "\r\n") = some fno.fname := by
  have hend : (bytes "\r\n").length = 2 := by decide
  rw [listedName, List.length_append, hend, Nat.add_sub_cancel, List.take_left, List.append_assoc,
    comps_space, comps_of_not_mem fno.no_space, if_neg hname, List.getLast?_concat]

theorem listedName_listLine {fno : FilInfo} (hname : fno.fname ≠ []) :
    listedName (listLine fno) = some fno.fname := by
  have hline : ∃ pre, listLine fno = pre ++ bytes " " ++ fno.fname ++ bytes "\r\n" := by
    unfold listLine
    dsimp only
    split <;> exact ⟨_, rfl⟩
  obtain ⟨pre, hpre⟩ := hline
  rw [hpre, listedName_last hname]

theorem listedName_nameLine {fno : FilInfo} (hname : fno.fname ≠ []) :
    listedName (nameLine fno) = some fno.fname := by
  have hend : (bytes "\r\n").length = 2 := by decide
  rw [listedName, nameLine, List.length_append, hend, Nat.add_sub_cancel, List.take_left,
    comps_of_not_mem fno.no_space, if_neg hname]
  rfl

@[simp] def opensDir : CallEvent → Bool
  | ⟨.fOpendir _, rc⟩ => decide (rc = FResult.ok)
  | _ => false

/-- The names that the client is sent, or nothing when the directory was not opened. -/
def namesSent (t : List CallEvent) : Option (List Bytes) :=
  if t.any opensDir then some ((dataLines t).filterMap listedName) else none

def namesIn (dirs : List DirEntry) : List Bytes :=
  ((readable dirs).takeWhile fun fno => fno.fname ≠ []).map FilInfo.fname

theorem names_of_lines {line : FilInfo → Bytes}
    (hline : ∀ fno : FilInfo, fno.fname ≠ [] → listedName (line fno) = some fno.fname)
    (dirs : List DirEntry) :
    (((readable dirs).takeWhile fun fno => fno.fname ≠ []).map line).filterMap listedName =
      namesIn dirs := by
  rw [namesIn, List.filterMap_map, ← List.filterMap_eq_map]
  apply List.filterMap_congr
  intro fno hfno
  exact hline fno (by simpa using List.mem_takeWhile_imp hfno)

end Names

section Listings
variable (v : Volume)

theorem total_fOpendir (path : Bytes) (left : List FilInfo)
    {post : List FilInfo → List CallEvent → Except Fault FResult → Prop} :
    Total (volumeStep v) (fOpendir path) left post ↔
      match openDir v path with
      | .ok dirs => post (readable dirs) [⟨.fOpendir path, FResult.ok⟩] (.ok .ok)
      | .error _ => ∀ rc ≠ .ok, post left [⟨.fOpendir path, rc⟩] (.ok rc) := by
  have hsome : FResult.noPath ≠ .ok := by decide
  cases hopen : openDir v path with
  | ok dirs =>
    refine total_call_unique fun rc u => ?_
    simp [volumeStep, Volume.answers, hopen]
  | error rc₀ =>
    rw [total_call]
    simp only [volumeStep, Volume.answers, hopen]
    constructor
    · intro h rc hrc
      exact h.2 rc left ⟨hrc, rfl⟩
    · intro h
      refine ⟨⟨.noPath, left, hsome, rfl⟩, ?_⟩
      rintro rc u ⟨hrc, rfl⟩
      exact h rc hrc

def dirNames (path : Bytes) : Option (List Bytes) := (openDir v path).toOption.map namesIn

def entryCount (path : Bytes) : Nat :=
  match openDir v path with
  | .ok dirs => (readable dirs).length
  | .error _ => 0

theorem total_volumeReply {via : Operand} {sock : Int} {text : Bytes} (htext : text ≠ [])
    (left : List FilInfo) {post : List FilInfo → List CallEvent → Except Fault Unit → Prop} :
    Total (volumeStep v) (doSendReply via sock text) left post ↔
      ∀ sent : Int, post left [⟨.reply via sock text, sent⟩] (.ok ()) := by
  have hlen : 0 < text.length := List.length_pos_iff.mpr htext
  have hsome : ∃ _ : Int, True := ⟨0, trivial⟩
  simp [doSendReply, hlen, volumeStep, Volume.answers, hsome]

theorem total_listing {α β : Type} {p : Ftp α} {left : List FilInfo}
    {names : Option (List Bytes)} (conn : Conn) (f : α → β)
    (h : Total (volumeStep v) p left (fun _ t _ => namesSent t = names)) :
    Total (volumeStep v) (do
      doSendReply .sockfd conn.sockfd Reply.openingList.text
      let answer ← p
      let _ ← close .pasvSockfd conn.pasvSockfd
      doSendReply .sockfd conn.sockfd Reply.transferComplete.text
      pure (f answer)) left (fun _ t _ => namesSent t = names) := by
  have hfirst : Reply.openingList.text ≠ [] := by simp
  have hlast : Reply.transferComplete.text ≠ [] := by simp
  have hsome : ∃ _ : Int, True := ⟨0, trivial⟩
  rw [total_bind, total_volumeReply v hfirst]
  intro sent
  rw [next_ok, total_bind]
  refine h.mono ?_
  intro u t r hnames
  cases r with
  | error e => simpa [namesSent] using hnames
  | ok answer =>
    simp only [next_ok, total_bind, total_call, total_volumeReply v hlast, total_pure]
    refine ⟨⟨(0 : Int), u, rfl⟩, ?_⟩
    rintro closed w rfl sent'
    simpa [namesSent] using hnames

theorem total_opened {line : FilInfo → Bytes} (hline : ∀ fno, line fno ≠ [])
    (hname : ∀ fno : FilInfo, fno.fname ≠ [] → listedName (line fno) = some fno.fname)
    {dirs : List DirEntry} {fuel : Nat} (hfuel : (readable dirs).length < fuel) (path : Bytes)
    (sock res : Int) :
    Total (volumeStep v) (listLoop line .pasvSockfd sock fuel res) (readable dirs) (fun _ t _ =>
      namesSent (⟨.fOpendir path, FResult.ok⟩ :: t) = some (namesIn dirs)) := by
  refine ((volume_readsEntries v).total_listLoop (w := readable dirs) hline .pasvSockfd sock hfuel
    res).mono ?_
  rintro u t r ⟨entries, last, rfl, hentries⟩
  simp only [namesSent, List.any_cons, opensDir, decide_true, Bool.true_or, if_true,
    dataLines_cons, dataLine, Option.toList, List.nil_append, dataLines_listTrace, hentries]
  exact congrArg some (names_of_lines hname dirs)

theorem total_doFullList_names {name : Bytes} {fuel : Nat} (left : List FilInfo)
    (hfuel : entryCount v (trimSlash name) < fuel) (sock : Int) :
    Total (volumeStep v) (doFullList fuel name .pasvSockfd sock) left (fun _ t _ =>
      namesSent t = dirNames v (trimSlash name)) := by
  have hrefused : Reply.listFailed.text ≠ [] := by simp
  rw [doFullList_eq, total_bind, total_fOpendir]
  unfold entryCount at hfuel
  cases hopen : openDir v (trimSlash name) with
  | error rc₀ =>
    intro rc hrc
    simp [hrc, total_volumeReply v hrefused, namesSent, dirNames, hopen, Except.toOption]
  | ok dirs =>
    rw [hopen] at hfuel
    simp only [next_ok, ne_eq, not_true_eq_false, if_false, total_bind]
    refine (total_opened v listLine_ne_nil (fun _ => listedName_listLine) hfuel
      (trimSlash name) sock (-1)).mono ?_
    intro u t r hnames
    cases r <;> simpa [dirNames, hopen, Except.toOption] using hnames

theorem total_doSimpleList_names {name : Bytes} {fuel : Nat} (left : List FilInfo)
    (hfuel : entryCount v name < fuel) (sock : Int) :
    Total (volumeStep v) (doSimpleList fuel name .pasvSockfd sock) left (fun _ t _ =>
      namesSent t = dirNames v name) := by
  have hrefused : Reply.simpleListFailed.text ≠ [] := by simp
  unfold doSimpleList
  rw [total_bind, total_fOpendir]
  unfold entryCount at hfuel
  cases hopen : openDir v name with
  | error rc₀ =>
    intro rc hrc
    simp [hrc, total_volumeReply v hrefused, namesSent, dirNames, hopen, Except.toOption]
  | ok dirs =>
    rw [hopen] at hfuel
    simp only [next_ok, ne_eq, not_true_eq_false, if_false]
    refine (total_opened v nameLine_ne_nil (fun _ => listedName_nameLine) hfuel name sock 0).mono ?_
    intro u t r hnames
    simpa [dirNames, hopen, Except.toOption] using hnames

end Listings

section Sessions

/-- With enough turns, every run of the command in this state sends these names, or fails. -/
def ShowsNames (v : Volume) (conn : Conn) (cmd : Cmd) (names : Option (List Bytes)) : Prop :=
  ∃ bound, ∀ fuel, bound ≤ fuel → ∀ buf parameter left,
    Total (volumeStep v) (dispatch fuel conn buf cmd parameter) left
      (fun _ t _ => namesSent t = names)

theorem ShowsNames.unique {v : Volume} {conn : Conn} {cmd : Cmd}
    {names names' : Option (List Bytes)} (h : ShowsNames v conn cmd names)
    (h' : ShowsNames v conn cmd names') : names = names' := by
  obtain ⟨bound, hnames⟩ := h
  obtain ⟨bound', hnames'⟩ := h'
  obtain ⟨t, r, u, hrun, hf, hsent⟩ :=
    (hnames (max bound bound') (le_max_left _ _) [] none []).exists_run
  rw [← hsent]
  exact (hnames' (max bound bound') (le_max_right _ _) [] none []).runs hrun hf

theorem showsNames_list (v : Volume) (conn : Conn) :
    ShowsNames v conn .list (dirNames v (trimSlash conn.currentdir)) := by
  refine ⟨entryCount v (trimSlash conn.currentdir) + 1, fun fuel hfuel buf parameter left => ?_⟩
  have hlisted := total_doFullList_names v left hfuel conn.pasvSockfd
  exact total_listing v conn (fun answer : Bytes × Int =>
    ({ conn with currentdir := answer.1, pasvActive := 0 }, (0 : Int))) hlisted

theorem showsNames_nlst (v : Volume) (conn : Conn) :
    ShowsNames v conn .nlst (dirNames v conn.currentdir) := by
  refine ⟨entryCount v conn.currentdir + 1, fun fuel hfuel buf parameter left => ?_⟩
  have hlisted := total_doSimpleList_names v left hfuel conn.pasvSockfd
  exact total_listing v conn (fun _ => ({ conn with pasvActive := 0 }, (0 : Int))) hlisted

def Agree (v : Volume) (conn : Conn) : Prop :=
  ∃ names, ShowsNames v conn .list names ∧ ShowsNames v conn .nlst names

theorem agree_iff_dirNames (v : Volume) (conn : Conn) :
    Agree v conn ↔ dirNames v (trimSlash conn.currentdir) = dirNames v conn.currentdir := by
  constructor
  · rintro ⟨names, hlist, hnlst⟩
    exact ((showsNames_list v conn).unique hlist).trans (hnlst.unique (showsNames_nlst v conn))
  · intro hsame
    exact ⟨_, showsNames_list v conn, hsame ▸ showsNames_nlst v conn⟩

/-- A slash that FatFs reads at the end keeps it from a directory that is there. -/
def HidesDir (v : Volume) (path : Bytes) : Prop :=
  EndsInSlash path ∧ ¬Stops path ∧ path ≠ bytes "0:/" ∧
    ∃ dirs, openDir v path.dropLast = .ok dirs

theorem dirNames_eq_none_iff (v : Volume) (path : Bytes) :
    dirNames v path = none ↔ ¬∃ dirs, openDir v path = .ok dirs := by
  unfold dirNames
  cases openDir v path <;> simp [Except.toOption]

theorem stops_concat_slash (path : Bytes) : Stops (path ++ [slash]) ↔ Stops path := by
  have hslash : ¬slash ≤ byte ' ' := by decide
  simp [Stops, hslash, or_and_right, exists_or]

theorem dirNames_trimSlash_iff (v : Volume) (path : Bytes) :
    dirNames v (trimSlash path) = dirNames v path ↔ ¬HidesDir v path := by
  by_cases hends : EndsInSlash path
  · have htrim : trimSlash path = path.dropLast := if_pos hends
    obtain ⟨p, hne, rfl⟩ := (endsInSlash_iff path).mp hends
    rw [htrim, List.dropLast_concat]
    have hsplit : bytes "0:/" = bytes "0:" ++ [slash] := by decide
    have hdrive : p ++ [slash] = bytes "0:/" ↔ p = bytes "0:" := by
      rw [hsplit]
      exact List.append_left_inj [slash]
    by_cases hstops : Stops p
    · simp [HidesDir, stops_concat_slash, hstops, dirNames, openDir_append v hstops]
    · by_cases hroot : p = bytes "0:"
      · subst hroot
        simp [HidesDir, hdrive, dirNames, openDir_drive]
      · obtain ⟨rc, hfails⟩ := openDir_slash v hstops hne hroot
        have hnone : dirNames v (p ++ [slash]) = none := by
          rw [dirNames, hfails]
          rfl
        rw [hnone, dirNames_eq_none_iff]
        simp [HidesDir, hends, stops_concat_slash, hstops, hdrive, hroot]
  · have htrim : trimSlash path = path := if_neg hends
    simp [htrim, HidesDir, hends]

/-- LIST and NLST agree unless `currentdir` ends in a slash that hides a directory from NLST. -/
theorem list_nlst_agree_iff (v : Volume) (conn : Conn) :
    Agree v conn ↔ ¬HidesDir v conn.currentdir := by
  rw [agree_iff_dirNames, dirNames_trimSlash_iff]

def dirA : DirEntry where
  name := bytes "A          "
  attr := amDir
  wrtDate := 0x0021
  fileSize := 0
  clust := 2
  name_length := by decide

def volumeA : Volume where
  table := fun clust => if clust = 0 then some [dirA] else if clust = 2 then some [] else none

theorem nlst_fails_after_slash : ¬∀ v conn, Reachable conn → Agree v conn := by
  intro h
  have hsame := (agree_iff_dirNames _ _).mp (h volumeA _ reachable_slashed)
  exact absurd hsame (by decide)

end Sessions

end FtpServer

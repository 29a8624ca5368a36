import FtpServer.Following
import FtpServer.Agreement

/-! Listing the directories of a volume that is on sectors: the calls of `f_opendir` and `f_readdir`
are answered as `Volume.answers` has it. -/

namespace FtpServer
open Interaction CString Transition

section Source

def Dir.validate (dp : Dir) : FatFs FResult := do
  let fs ← get
  if dp.attached = false ∨ fs.fsType = .unmounted ∨ fs.id ≠ dp.id then pure .invalidObject
  else pure .ok

/-- The loop of `dir_read`, for files and directories. -/
def Dir.readLoop : Nat → FResult → Dir → DirOp Dir
  | 0, _, _ => liftM (stuck : FatFs Dir)
  | fuel + 1, res, dp =>
    if dp.sect = 0 then
      if res = .ok then pure dp else leave res dp
    else do
      let res ← liftM (moveWindow dp.sect)
      if res ≠ .ok then leave res dp
      else do
        let fs ← get
        match dp.dir with
        | none => liftM (stuck : FatFs Dir)
        | some dir =>
          -- the end of the table is not behind its last entry
          if fs.win.get dir = 0 then leave .noFile dp
          else if (dirEntry fs.toGeometry fs.win dir).listed = true then pure dp
          else do
            let dp ← dp.dirNext false
            Dir.readLoop fuel .ok dp

def Dir.dirRead (dp : Dir) : DirOp Dir :=
  tryCatch (Dir.readLoop (2 ^ 16) .noFile dp) fun e => leave e.1 { e.2 with sect := 0 }

/-- For `f_readdir` the end of the table is no error. -/
def reachEnd (p : DirOp Dir) : DirOp Dir :=
  tryCatch p fun e => if e.1 = .noFile then pure { e.2 with sect := 0 } else leave e.1 e.2

def FilInfo.unnamed (fno : FilInfo) : FilInfo :=
  { fno with fname := [], fname_length := Nat.zero_le _, no_space := List.not_mem_nil }

def Dir.fileinfo (dp : Dir) (fs : Fatfs) (fno : FilInfo) : FilInfo :=
  match dp.sect, dp.dir with
  | _ + 1, some dir => getFileinfo (dirEntry fs.toGeometry fs.win dir)
  | _, _ => fno.unnamed

def Dir.fReaddir (dp : Dir) (fno : FilInfo) : FatFs (FResult × FilInfo × Dir) := do
  let res ← dp.validate
  if res ≠ .ok then pure (res, fno, dp)
  else do
    match ← (reachEnd dp.dirRead).run with
    | .error e => pure (e.1, fno, e.2)
    | .ok dp => do
      let fs ← get
      let fno := dp.fileinfo fs fno
      match ← (reachEnd (dp.dirNext false)).run with
      | .error e => pure (e.1, fno, e.2)
      | .ok dp => pure (.ok, fno, dp)

end Source

section Calls

/-- `failed` says whether a transfer has failed; `fno` is the variable of the caller. -/
structure DirState where
  fs : Fatfs
  dev : Device
  failed : Bool
  dp : Dir
  fno : FilInfo

/-- The two calls that a listing makes to FatFs; the others it makes are to the sockets. -/
def DirState.answers (s s' : DirState) : (c : Call) → c.Answer → Prop
  | .fOpendir path, res =>
    Executes notedStep (s.dp.fOpendir path) s.fs (s.dev, s.failed) (res, s'.dp) s'.fs
      (s'.dev, s'.failed) ∧ s'.fno = s.fno
  | .fReaddir, (res, fno) =>
    Executes notedStep (s.dp.fReaddir s.fno) s.fs (s.dev, s.failed) (res, fno, s'.dp) s'.fs
      (s'.dev, s'.failed) ∧ s'.fno = fno
  | _, _ => s' = s

def dirStep (s : DirState) (e : CallEvent) (s' : DirState) : Prop :=
  s.answers s' e.call e.answer

/-- The device fails, or an object is read that is not open. -/
def DirFailed : CallEvent → Prop
  | ⟨.fOpendir _, res⟩ => res = .diskErr
  | ⟨.fReaddir, (res, _)⟩ => res ≠ .ok
  | _ => False

end Calls

section Aborting
variable {g : Geometry}

theorem maintains_dirValidate {P : Nat → Prop} (dp : Dir) :
    Maintains (Around g P) failedTransfer dp.validate (· ≠ .diskErr) :=
  maintains_get fun _ _ => maintains_ite (fun _ => maintains_pure (by decide))
    fun _ => maintains_pure (by decide)

theorem dirAborts_reachEnd {p : DirOp Dir} (h : DirAborts g True p) :
    DirAborts g True (reachEnd p) := by
  refine MaintainsElse.tryCatch h fun e => maintainsElse_ite (fun _ => ?_) fun _ => ?_
  · exact maintainsElse_pure fun _ _ => trivial
  · exact maintainsElse_throw id

theorem dirAborts_readLoop (hg : g.Sound) (fuel : Nat) {res : FResult} (hres : res ≠ .diskErr)
    (dp : Dir) : DirAborts g True (Dir.readLoop fuel res dp) := by
  induction fuel generalizing res dp with
  | zero => exact Maintains.lift maintains_stuck
  | succ fuel ih =>
    refine maintainsElse_ite (fun _ => maintainsElse_ite (fun _ => dirAborts_pure _)
      fun _ => dirAborts_leave fun _ => hres) fun _ => ?_
    refine (aborts_lift (maintains_moveWindow trivial trivial)).bind fun res => maintainsElse_ite
      (fun hno => dirAborts_leave fun hok => absurd hok.2 hno) fun _ =>
        maintainsElse_get fun fs _ => ?_
    cases dp.dir with
    | none => exact Maintains.lift maintains_stuck
    | some dir =>
      refine Aborts.weaken (c := True) ?_ fun _ => trivial
      refine maintainsElse_ite (fun _ => dirAborts_leave fun _ => nofun) fun _ =>
        maintainsElse_ite (fun _ => dirAborts_pure _) fun _ => ?_
      exact (dirAborts_dirNext hg dp).bind fun dp => ih (by decide) dp

theorem maintains_fReaddir (hg : g.Sound) (dp : Dir) (fno : FilInfo) :
    Maintains (Around g fun _ => True) failedTransfer (dp.fReaddir fno) (·.1 ≠ .diskErr) := by
  have hread : DirAborts g True (reachEnd dp.dirRead) :=
    dirAborts_reachEnd (MaintainsElse.tryCatch (dirAborts_readLoop hg _ (by decide) dp)
      fun e => maintainsElse_throw id)
  refine (maintains_dirValidate dp).bind fun res => maintains_ite
    (fun _ => maintains_pure id) fun _ => ?_
  refine Maintains.bind hread fun r => ?_
  cases r with
  | error e => exact maintains_pure fun he _ => he trivial
  | ok dp =>
    refine maintains_get fun fs _ =>
      Maintains.bind (dirAborts_reachEnd (dirAborts_dirNext hg dp)) fun r => ?_
    cases r with
    | error e => exact maintains_pure fun he _ _ => he trivial
    | ok dp => exact maintains_pure fun _ _ _ => nofun

end Aborting

section Entries
variable {g : Geometry} {v : Sectors} {u : Volume} {dirs : UInt32 → Prop} {fs : Fatfs}
  {dev : Device} {dp : Dir} {area : DirArea} {i : Nat} {left : List FilInfo}

theorem readable_cons (dir : DirEntry) (rest : List DirEntry) :
    readable (dir :: rest) =
      if dir.name.head? = some 0 then []
      else if dir.listed = true then getFileinfo dir :: readable rest else readable rest := by
  unfold readable
  by_cases hend : dir.name.head? = some 0
  · simp [hend]
  · by_cases hlisted : dir.listed = true <;> simp [hend, hlisted]

structure DirGiven (g : Geometry) (v : Sectors) (area : DirArea) (obj : DirBase)
    (left : List FilInfo) (dp' : Dir) (fs' : Fatfs) (dev' : Device) : Prop where
  shows : Presents g v fs' dev'
  base : dp'.toDirBase = obj
  window : fs'.win = v dp'.sect
  given : ∃ j, DirOn g area dp' j ∧
    left = getFileinfo (area.entry g v j) :: readable ((area.table g v).drop (j + 1))

theorem ensuresElse_readLoop (hg : g.Sound) (hroot : g.Rooted) {fuel : Nat}
    (hfuel : area.count g ≤ i + fuel) (hdir : DirAt g v dp.sclust area) (h : Presents g v fs dev)
    (hon : DirOn g area dp i) (res : FResult) :
    EnsuresElse deviceStep (Dir.readLoop fuel res dp) fs dev
      (DirGiven g v area dp.toDirBase (readable ((area.table g v).drop i)))
      (DirLeft g v dp.toDirBase (readable ((area.table g v).drop i) = [])) := by
  induction fuel generalizing i dp fs dev res with
  | zero => exact absurd hon.lt (by omega)
  | succ fuel ih =>
    have hdata := hon.data hdir hg hroot
    have hsect := hdata.pos hg
    have hdrop := DirArea.drop_table (v := v) hon.lt
    simp only [Dir.readLoop, leave, ensuresElse_bind, ensuresElse_lift, ensuresElse_ite,
      ensuresElse_throw, ensuresElse_get, ensuresElse_pure, hon.dir, hon.sect]
    refine ⟨fun hno => absurd hno hsect, fun _ => ?_⟩
    apply (ensures_moveWindow hg h (hdata.primary hg)).mono
    rintro res' fs' dev' ⟨hshows, -, ⟨rfl, -, hwin⟩ | ⟨rfl, -⟩, -⟩
    · refine ⟨fun hno => absurd rfl hno, fun _ => ?_⟩
      rw [hwin, hshows.geometry]
      refine ⟨fun hzero => ⟨hshows, rfl, .inl ⟨rfl, ?_⟩⟩, fun hmore =>
        ⟨fun hlisted => ?_, fun hother => ?_⟩⟩
      · rw [hdrop, readable_cons, if_pos (DirArea.entry_ends.mpr hzero)]
      · refine ⟨hshows, rfl, hon.sect ▸ hwin, i, hon, ?_⟩
        rw [hdrop, readable_cons, if_neg (mt DirArea.entry_ends.mp hmore)]
        exact if_pos hlisted
      · have hskip : readable ((area.table g v).drop i) =
            readable ((area.table g v).drop (i + 1)) := by
          rw [hdrop, readable_cons, if_neg (mt DirArea.entry_ends.mp hmore)]
          exact if_neg hother
        rw [hskip]
        apply (ensuresElse_dirNext hg hroot hdir hshows hon).mono
        · rintro dp' fs'' dev'' ⟨hshows', hbase, hon'⟩
          have hrest := ih (by omega) (by rwa [hbase]) hshows' hon' .ok
          rw [hbase] at hrest
          exact hrest
        · rintro e fs'' dev'' ⟨hshows', hbase, houtcome⟩
          refine ⟨hshows', hbase, houtcome.imp_left ?_⟩
          rintro ⟨hres, hover⟩
          refine ⟨hres, ?_⟩
          rw [DirArea.drop_all hover]
          rfl
    · exact ⟨fun _ => ⟨hshows, rfl, .inr rfl⟩, fun hno => absurd hno (by decide)⟩

/-- What `f_readdir` comes to on a directory with the entries `left` to be read. -/
structure DirRead (g : Geometry) (v : Sectors) (left : List FilInfo) (r : FResult × FilInfo × Dir)
    (fs : Fatfs) (dev : Device) : Prop where
  shows : Presents g v fs dev
  outcome : r.1 = .diskErr ∨ r.1 = .ok ∧
    ((left = [] ∧ r.2.1.fname = [] ∧ Listing g v r.2.2 []) ∨
      ∃ left', left = r.2.1 :: left' ∧ Listing g v r.2.2 left')

theorem ensures_dirValidate (hg : g.Sound) (h : Presents g v fs dev)
    (hattached : dp.attached = true) (hid : dp.id = g.id)
    {post : FResult → Fatfs → Device → Prop} (hpost : post .ok fs dev) :
    Ensures deviceStep dp.validate fs dev post := by
  have hgeom := h.geometry
  have hmounted : fs.fsType ≠ .unmounted := by
    rw [congrArg Geometry.fsType hgeom]
    exact hg.mounted
  have hsame : fs.id = dp.id := (congrArg Geometry.id hgeom).trans hid.symm
  have hvalid : ¬(dp.attached = false ∨ fs.fsType = .unmounted ∨ fs.id ≠ dp.id) := by
    simp [hattached, hmounted, hsame]
  rw [Dir.validate, ensures_bind, ensures_get, if_neg hvalid, ensures_pure]
  exact hpost

theorem readLoop_end {fuel : Nat} (hfuel : 0 < fuel) (hsect : dp.sect = 0) :
    Dir.readLoop fuel .noFile dp = leave .noFile dp := by
  cases fuel with
  | zero => exact absurd hfuel (lt_irrefl _)
  | succ fuel => rw [Dir.readLoop, if_pos hsect, if_neg (by decide)]

theorem ensuresElse_reachRead (hg : g.Sound) (hroot : g.Rooted) (h : Presents g v fs dev)
    (hlist : Listing g v dp left) :
    EnsuresElse deviceStep (reachEnd dp.dirRead) fs dev
      (fun dp' fs' dev' =>
        (Presents g v fs' dev' ∧ dp'.toDirBase = dp.toDirBase ∧ dp'.sect = 0 ∧ left = []) ∨
        ∃ area, DirAt g v dp.sclust area ∧ DirGiven g v area dp.toDirBase left dp' fs' dev')
      (fun e fs' dev' => Presents g v fs' dev' ∧ e.1 = .diskErr) := by
  rw [reachEnd, Dir.dirRead, ensuresElse_tryCatch, ensuresElse_tryCatch]
  rcases hlist.rest with ⟨hsect, hnil⟩ | ⟨area, i, hdir, hon, rfl⟩
  · rw [readLoop_end (Nat.two_pow_pos 16) hsect]
    simp only [leave, ensuresElse_throw, if_true, ensuresElse_pure]
    exact .inl ⟨h, trivial, trivial, hnil⟩
  · apply (ensuresElse_readLoop hg hroot (DirArea.count_le_turns i) hdir h hon .noFile).mono
    · exact fun dp' fs' dev' hgiven => .inr ⟨area, hdir, hgiven⟩
    · rintro e fs' dev' ⟨hshows, hbase, ⟨hres, hend⟩ | hres⟩
      · simp only [leave, ensuresElse_throw, hres, if_true, ensuresElse_pure]
        exact .inl ⟨hshows, hbase, trivial, hend⟩
      · simp only [leave, ensuresElse_throw, hres, reduceCtorEq, if_false]
        exact ⟨hshows, trivial⟩

theorem ensuresElse_reachNext (hg : g.Sound) (hroot : g.Rooted) (h : Presents g v fs dev)
    (hattached : dp.attached = true) (hid : dp.id = g.id)
    (hrest : dp.sect = 0 ∧ left = [] ∨ ∃ area i, DirAt g v dp.sclust area ∧ DirOn g area dp i ∧
      left = readable ((area.table g v).drop (i + 1))) :
    EnsuresElse deviceStep (reachEnd (dp.dirNext false)) fs dev
      (fun dp' fs' dev' => Presents g v fs' dev' ∧ Listing g v dp' left)
      (fun e fs' dev' => Presents g v fs' dev' ∧ e.1 = .diskErr) := by
  rw [reachEnd, ensuresElse_tryCatch]
  rcases hrest with ⟨hsect, hnil⟩ | ⟨area, i, hdir, hon, rfl⟩
  · have hstop : dp.dirNext false = leave .noFile dp := by
      rw [Dir.dirNext, if_pos (.inr hsect)]
    simp only [hstop, leave, ensuresElse_throw, if_true, ensuresElse_pure]
    exact ⟨h, hattached, hid, .inl ⟨rfl, hnil⟩⟩
  · apply (ensuresElse_dirNext hg hroot hdir h hon).mono
    · rintro dp' fs' dev' ⟨hshows, hbase, hon'⟩
      refine ⟨hshows, ?_, ?_, .inr ⟨area, i + 1, ?_, hon', rfl⟩⟩ <;> rwa [hbase]
    · rintro e fs' dev' ⟨hshows, hbase, ⟨hres, hover⟩ | hres⟩
      · simp only [leave, hres, if_true, ensuresElse_pure, DirArea.drop_all hover]
        refine ⟨hshows, ?_, ?_, .inl ⟨rfl, rfl⟩⟩
        · exact (congrArg DirBase.attached hbase).trans hattached
        · exact (congrArg DirBase.id hbase).trans hid
      · simp only [leave, ensuresElse_throw, hres, reduceCtorEq, if_false]
        exact ⟨hshows, trivial⟩

theorem ensures_fReaddir (hg : g.Sound) (hroot : g.Rooted) (h : Presents g v fs dev)
    (hlist : Listing g v dp left) (fno : FilInfo) :
    Ensures deviceStep (dp.fReaddir fno) fs dev (DirRead g v left) := by
  rw [Dir.fReaddir, ensures_bind]
  apply ensures_dirValidate hg h hlist.attached hlist.id
  rw [if_neg (fun hno => hno rfl), ensures_bind]
  apply Ensures.mono (ensuresElse_reachRead hg hroot h hlist)
  rintro r fs' dev' (⟨dp', rfl, hread⟩ | ⟨e, rfl, hshows, hres⟩)
  · dsimp only
    rw [ensures_bind, ensures_get, ensures_bind]
    rcases hread with ⟨hshows, hbase, hsect, rfl⟩ |
      ⟨area, hdir, hshows, hbase, hwindow, j, hon, rfl⟩
    · have hnil : ([] : List FilInfo) = [] := rfl
      have hnext := ensuresElse_reachNext hg hroot hshows (by rw [hbase]; exact hlist.attached)
        (by rw [hbase]; exact hlist.id) (.inl ⟨hsect, hnil⟩)
      apply Ensures.mono hnext
      rintro r fs'' dev'' (⟨dp'', rfl, hshows', hlist'⟩ | ⟨e, rfl, hshows', hres⟩)
      · refine (ensures_pure _).mpr ⟨hshows', .inr ⟨rfl, .inl ⟨rfl, ?_, hlist'⟩⟩⟩
        simp [Dir.fileinfo, FilInfo.unnamed, hsect]
      · exact (ensures_pure _).mpr ⟨hshows', .inl hres⟩
    · have hdir' : DirAt g v dp'.sclust area := by rwa [hbase]
      have hsect : dp'.sect ≠ 0 := by
        rw [hon.sect]
        exact (hon.data hdir' hg hroot).pos hg
      have hentry : dirEntry fs'.toGeometry fs'.win (j % 16 * 32) = area.entry g v j := by
        rw [hshows.geometry, hwindow, hon.sect]
        rfl
      have hinfo : dp'.fileinfo fs' fno = getFileinfo (area.entry g v j) := by
        obtain ⟨n, hn⟩ := Nat.exists_eq_succ_of_ne_zero hsect
        simp [Dir.fileinfo, hn, hon.dir, hentry]
      have hnext := ensuresElse_reachNext hg hroot hshows (by rw [hbase]; exact hlist.attached)
        (by rw [hbase]; exact hlist.id) (.inr ⟨area, j, hdir', hon, rfl⟩)
      apply Ensures.mono hnext
      rintro r fs'' dev'' (⟨dp'', rfl, hshows', hlist'⟩ | ⟨e, rfl, hshows', hres⟩)
      · exact (ensures_pure _).mpr ⟨hshows', .inr ⟨rfl, .inr ⟨_, by rw [hinfo], hlist'⟩⟩⟩
      · exact (ensures_pure _).mpr ⟨hshows', .inl hres⟩
  · exact (ensures_pure _).mpr ⟨hshows, .inl hres⟩

theorem ensures_fReaddir_closed (hclosed : dp.attached = false) (fno : FilInfo) :
    Ensures deviceStep (dp.fReaddir fno) fs dev (fun r _ _ => r.1 = .invalidObject) := by
  simp [Dir.fReaddir, Dir.validate, hclosed]

structure Browsing (g : Geometry) (v : Sectors) (s : DirState) (left : List FilInfo) : Prop where
  shows : Presents g v s.fs s.dev
  listing : s.dp.attached = true → Listing g v s.dp left

theorem Browsing.step (hg : g.Sound) (hroot : g.Rooted) (hheld : HoldsDirs g v u dirs)
    {s s' : DirState} {e : CallEvent} (h : Browsing g v s left) (hstep : dirStep s e s')
    (hok : ¬DirFailed e) : ∃ left', volumeStep u left e left' ∧ Browsing g v s' left' := by
  obtain ⟨call, answer⟩ := e
  cases call with
  | fOpendir path =>
    obtain ⟨hexec, -⟩ := hstep
    obtain ⟨hshows, ⟨hres, list, hopen, hlist⟩ | ⟨hclosed, hres⟩⟩ :=
      (ensures_fOpendir hg hroot hheld h.shows).executes hexec.forget
    · refine ⟨readable list, ?_, hshows, fun _ => hlist⟩
      simp only [volumeStep, Volume.answers, hopen]
      exact ⟨hres, trivial⟩
    · have herr := hres.resolve_left hok
      refine ⟨left, ?_, hshows, fun hno => absurd (hclosed.symm.trans hno) (by decide)⟩
      simp only [volumeStep, Volume.answers, herr]
      exact ⟨openDir_error herr, trivial⟩
  | fReaddir =>
    obtain ⟨res, fno⟩ := answer
    obtain ⟨hexec, -⟩ := hstep
    have hres : res = .ok := not_not.mp hok
    -- an object whose `f_opendir` failed is not read with success
    have hopen : s.dp.attached = true := by
      by_contra hclosed
      have hfails :=
        (ensures_fReaddir_closed (Bool.not_eq_true _ ▸ hclosed) _).executes hexec.forget
      exact absurd (hres.symm.trans hfails) (by decide)
    obtain ⟨hshows, hfails | ⟨-, ⟨rfl, hname, hlist⟩ | ⟨left', rfl, hlist⟩⟩⟩ :=
      (ensures_fReaddir hg hroot h.shows (h.listing hopen) _).executes hexec.forget
    · exact absurd (hres.symm.trans hfails) (by decide)
    · exact ⟨[], ⟨hres, .inl ⟨rfl, hname, rfl⟩⟩, hshows, fun _ => hlist⟩
    · exact ⟨left', ⟨hres, .inr rfl⟩, hshows, fun _ => hlist⟩
  | _ =>
    cases hstep
    exact ⟨left, rfl, h⟩

/-- As long as the device does not fail, FatFs on its sectors is the volume that `u` says. -/
theorem Browsing.run (hg : g.Sound) (hroot : g.Rooted) (hheld : HoldsDirs g v u dirs)
    {s s' : DirState} {t : List CallEvent} (h : Browsing g v s left)
    (hrun : Follows dirStep s t s') (hok : ∀ e ∈ t, ¬DirFailed e) :
    ∃ left', Follows (volumeStep u) left t left' ∧ Browsing g v s' left' := by
  induction t generalizing s left with
  | nil =>
    cases hrun
    exact ⟨left, rfl, h⟩
  | cons e t ih =>
    obtain ⟨s₁, hstep, hrest⟩ := hrun
    obtain ⟨he, hok⟩ := List.forall_mem_cons.mp hok
    obtain ⟨left₁, hvolume, hnext⟩ := h.step hg hroot hheld hstep he
    obtain ⟨left', hfollows, hlast⟩ := ih hnext hrest hok
    exact ⟨left', ⟨left₁, hvolume, hfollows⟩, hlast⟩

/-- Whether a directory is open, as far as the calls tell. -/
@[simp] def openedBy (opened : Bool) : CallEvent → Bool
  | ⟨.fOpendir _, res⟩ => decide (res = FResult.ok)
  | _ => opened

@[simp] def ReadsOpened (opened : Bool) : List CallEvent → Prop
  | [] => True
  | e :: t => (e.call = .fReaddir → opened = true) ∧ ReadsOpened (openedBy opened e) t

@[simp] theorem readsOpened_listTrace (line : FilInfo → Bytes) (via : Operand) (sock : Int)
    (entries : List (FilInfo × Int)) (last : FResult × FilInfo) (t : List CallEvent) :
    ReadsOpened true (listTrace line via sock entries last ++ t) ↔ ReadsOpened true t := by
  induction entries with
  | nil => simp [listTrace]
  | cons entry entries ih => simp [listTrace, ih]

theorem dirStep_unfailed {s s' : DirState} {e : CallEvent} (hstep : dirStep s e s')
    (hquiet : s'.failed = false) : s.failed = false := by
  obtain ⟨call, answer⟩ := e
  cases call with
  | fOpendir path =>
    obtain ⟨hexec, -⟩ := hstep
    rw [hquiet] at hexec
    exact hexec.unnoted
  | fReaddir =>
    obtain ⟨hexec, -⟩ := hstep
    rw [hquiet] at hexec
    exact hexec.unnoted
  | _ =>
    cases hstep
    exact hquiet

theorem follows_unfailed {s s' : DirState} {t : List CallEvent} (hrun : Follows dirStep s t s')
    (hquiet : s'.failed = false) : s.failed = false := by
  by_contra hfailed
  have hstill : s'.failed ≠ false := by
    refine Follows.invariant (fun s : DirState => s.failed ≠ false) ?_ hrun hfailed
    exact fun w e w' hw hstep hno => hw (dirStep_unfailed hstep hno)
  exact hstill hquiet

theorem Browsing.step_quiet (hg : g.Sound) (hroot : g.Rooted) (hheld : HoldsDirs g v u dirs)
    {s s' : DirState} {e : CallEvent} {opened : Bool} (h : Browsing g v s left)
    (hopened : opened = true → s.dp.attached = true) (hreads : e.call = .fReaddir → opened = true)
    (hstep : dirStep s e s') (hquiet : s'.failed = false) :
    ¬DirFailed e ∧ (openedBy opened e = true → s'.dp.attached = true) := by
  have hstart : Around g (fun _ => True) s.fs := ⟨h.shows.geometry, trivial⟩
  have hbefore := dirStep_unfailed hstep hquiet
  obtain ⟨call, answer⟩ := e
  cases call with
  | fOpendir path =>
    obtain ⟨hexec, -⟩ := hstep
    have hanswer := (ensures_fOpendir hg hroot hheld h.shows).executes hexec.forget
    rw [hbefore] at hexec
    have hread := ((maintains_fOpendir hg _ path).executes hstart hexec).2 hquiet
    refine ⟨hread, fun hopens => ?_⟩
    rcases hanswer.outcome with ⟨-, list, -, hlist⟩ | ⟨-, herr | herr⟩
    · exact hlist.attached
    · exact absurd herr hread
    · exact absurd (of_decide_eq_true hopens) (openDir_error herr)
  | fReaddir =>
    obtain ⟨res, fno⟩ := answer
    obtain ⟨hexec, -⟩ := hstep
    have hattached := hopened (hreads rfl)
    have hanswer :=
      (ensures_fReaddir hg hroot h.shows (h.listing hattached) _).executes hexec.forget
    rw [hbefore] at hexec
    have hread := ((maintains_fReaddir hg _ _).executes hstart hexec).2 hquiet
    rcases hanswer.outcome with herr | ⟨hok, ⟨-, -, hlist⟩ | ⟨left', -, hlist⟩⟩
    · exact absurd herr hread
    · exact ⟨fun hno => hno hok, fun _ => hlist.attached⟩
    · exact ⟨fun hno => hno hok, fun _ => hlist.attached⟩
  | _ =>
    cases hstep
    exact ⟨id, hopened⟩

/-- Where no transfer fails, no call does. -/
theorem Browsing.quiet (hg : g.Sound) (hroot : g.Rooted) (hheld : HoldsDirs g v u dirs)
    {s s' : DirState} {t : List CallEvent} {opened : Bool} (h : Browsing g v s left)
    (hopened : opened = true → s.dp.attached = true) (hreads : ReadsOpened opened t)
    (hrun : Follows dirStep s t s') (hquiet : s'.failed = false) : ∀ e ∈ t, ¬DirFailed e := by
  induction t generalizing s left opened with
  | nil => simp
  | cons e t ih =>
    obtain ⟨s₁, hstep, hrest⟩ := hrun
    have hquiet₁ := follows_unfailed hrest hquiet
    obtain ⟨hok, hopened₁⟩ := h.step_quiet hg hroot hheld hopened hreads.1 hstep hquiet₁
    obtain ⟨left₁, -, hnext⟩ := h.step hg hroot hheld hstep hok
    exact List.forall_mem_cons.mpr ⟨hok, ih hnext hopened₁ hreads.2 hrest⟩

/-- With enough turns, every run of the command over the device in which no transfer fails, or none
that a call reports, sends these names; and the sectors are as before. -/
def ShowsOnDevice (g : Geometry) (v : Sectors) (conn : Conn) (cmd : Cmd)
    (names : Option (List Bytes)) : Prop :=
  ∃ bound, ∀ fuel, bound ≤ fuel → ∀ buf parameter s s' left t r, Browsing g v s left →
    Runs (dispatch fuel conn buf cmd parameter) t r → Follows dirStep s t s' →
    s'.failed = false ∨ (∀ e ∈ t, ¬DirFailed e) →
    namesSent t = names ∧ Presents g v s'.fs s'.dev

theorem ShowsNames.onDevice {conn : Conn} {cmd : Cmd} {names : Option (List Bytes)}
    (h : ShowsNames u conn cmd names) (hg : g.Sound) (hroot : g.Rooted)
    (hheld : HoldsDirs g v u dirs) (hreads : ∀ fuel buf parameter,
      Always (dispatch fuel conn buf cmd parameter) (fun t _ => ReadsOpened false t)) :
    ShowsOnDevice g v conn cmd names := by
  obtain ⟨bound, hnames⟩ := h
  refine ⟨bound, fun fuel hfuel buf parameter s s' left t r hbrowsing hrun hserved hfine => ?_⟩
  have hok : ∀ e ∈ t, ¬DirFailed e := hfine.elim
    (hbrowsing.quiet hg hroot hheld (by simp) (hreads _ _ _ t r hrun) hserved) id
  obtain ⟨left', hfollows, hafter⟩ := hbrowsing.run hg hroot hheld hserved hok
  exact ⟨(hnames fuel hfuel buf parameter left).runs hrun hfollows, hafter.shows⟩

/-- LIST and NLST send the names that the sectors of the device hold. -/
theorem list_on_device (hg : g.Sound) (hroot : g.Rooted) (hheld : HoldsDirs g v u dirs)
    (conn : Conn) :
    ShowsOnDevice g v conn .list (dirNames u (trimSlash conn.currentdir)) ∧
      ShowsOnDevice g v conn .nlst (dirNames u conn.currentdir) :=
  ⟨(showsNames_list u conn).onDevice hg hroot hheld fun _ _ _ => by
      simp [dispatch, cmdList, doFullList],
    (showsNames_nlst u conn).onDevice hg hroot hheld fun _ _ _ => by
      simp [dispatch, cmdNlst, doSimpleList]⟩

theorem dirFind_mem {fn : Bytes} {list : List DirEntry} {dir : DirEntry}
    (h : dirFind fn list = some dir) : dir ∈ list := by
  induction list with
  | nil => cases h
  | cons first rest ih =>
    rw [dirFind] at h
    split_ifs at h
    · rw [← Option.some_inj.mp h]
      exact List.mem_cons_self
    · exact List.mem_cons_of_mem _ (ih h)

theorem floppy_rooted : floppy.Rooted := by constructor <;> decide

def slot (name : String) (attr clust : UInt8) : Bytes :=
  bytes name ++ [attr] ++ List.replicate 14 0 ++ [clust, 0, 0, 0, 0, 0]

/-- A floppy disk with a label, a file and a directory in the root, the directory in cluster 2. -/
def filed : Sectors := fun n =>
  if n = 1 ∨ n = 10 then Sector.zero.store 0 [0xF0, 0xFF, 0xFF, 0xFF, 0x0F]
  else if n = 19 then Sector.zero.store 0
    (slot "FTP DISK   " amVol 0 ++ slot "README  TXT" amArc 0 ++ slot "DOCS       " amDir 2)
  else if n = 33 then Sector.zero.store 0
    (slot ".          " amDir 2 ++ slot "..         " amDir 0 ++ slot "A       TXT" amArc 0 ++
      dde :: (slot "X       TXT" amArc 0).tail ++ slot "B       TXT" amArc 0)
  else .zero

def filedVolume : Volume where
  table := fun clust =>
    if clust = 0 then some (DirArea.root.table floppy filed)
    else if clust = 2 then some ((DirArea.chain [2]).table floppy filed)
    else none

theorem filed_cluster : floppy.Cluster 2 := ⟨by decide, by decide⟩

theorem filed_chain : Chain floppy (floppy.table filed) 2 [2] := by
  have hmark : floppy.table filed 2 = 0xFFF := by decide +kernel
  rw [chain_cons, chain_nil, hmark]
  exact ⟨rfl, filed_cluster, by decide, by decide⟩

theorem holdsDirs_filed : HoldsDirs floppy filed filedVolume (fun c => c = 0 ∨ c = 2) where
  root := .inl rfl
  table := by
    rintro c (rfl | rfl)
    · exact ⟨.root, ⟨rfl, by decide⟩, rfl⟩
    · exact ⟨.chain [2], ⟨filed_cluster, filed_chain⟩, rfl⟩
  sub := by
    have hroot : ∀ dir ∈ DirArea.root.table floppy filed, dir.attr &&& amDir ≠ 0 →
        dir.clust = 0 ∨ dir.clust = 2 := by decide +kernel
    have hdocs : ∀ dir ∈ (DirArea.chain [2]).table floppy filed, dir.attr &&& amDir ≠ 0 →
        dir.clust = 0 ∨ dir.clust = 2 := by decide +kernel
    rintro c list path seg dir (rfl | rfl) hlist - hfound hsub <;> cases hlist
    · exact hroot dir (dirFind_mem hfound) hsub
    · exact hdocs dir (dirFind_mem hfound) hsub

def filedState : DirState where
  fs := (blank floppy).1
  dev := ⟨filed, fun _ => false⟩
  failed := false
  dp := { attached := false, id := 0, sclust := 0, fn := [], index := 0, clust := 0, sect := 0,
          dir := none }
  fno := noEntry

theorem browsing_filed : Browsing floppy filed filedState [] where
  shows :=
    { geometry := rfl, win := fun hno => absurd hno.1 (by decide)
      device := fun _ _ _ => rfl, dirty := fun hno => absurd hno (by decide)
      mirrored := by
        have hcopies : ∀ i < 9, ∀ j < 2, filed (1 + j * 9 + i) = filed (1 + i) := by
          decide +kernel
        exact fun i hi j hj _ _ => hcopies i hi j hj }
  listing := fun hno => absurd hno (by decide)

def textInfo (name : String) (h : (bytes name).length ≤ 12 ∧ byte ' ' ∉ bytes name) : FilInfo where
  fsize := 0
  fdate := 0
  fattrib := amArc
  fname := bytes name
  fname_length := h.1
  no_space := h.2

def aText : FilInfo := textInfo "A.TXT" (by decide)

def bText : FilInfo := textInfo "B.TXT" (by decide)

def inDocs : Conn := { justAccepted with currentdir := bytes "/docs" }

def nlstCalls : List CallEvent :=
  [⟨.reply .sockfd 1 Reply.openingList.text, 51⟩, ⟨.fOpendir (bytes "/docs"), FResult.ok⟩,
    ⟨.fReaddir, (.ok, aText)⟩, ⟨.reply .pasvSockfd 0 (nameLine aText), 7⟩,
    ⟨.fReaddir, (.ok, bText)⟩, ⟨.reply .pasvSockfd 0 (nameLine bText), 7⟩,
    ⟨.fReaddir, (.ok, bText.unnamed)⟩, ⟨.close .pasvSockfd 0, 0⟩,
    ⟨.reply .sockfd 1 Reply.transferComplete.text, 24⟩]

theorem runs_nlstCalls (n : Nat) :
    Runs (dispatch (n + 3) inDocs [] .nlst none) nlstCalls (.ok (inDocs, 0)) :=
  runs_of_replay rfl

theorem follows_nlstCalls :
    ∃ s', Follows dirStep filedState nlstCalls s' ∧ s'.failed = false := by
  obtain ⟨fs, dev, hplay⟩ := exists_executes_quiet (s := filedState.fs) (w := filedState.dev)
    (p := do
      let r ← filedState.dp.fOpendir (bytes "/docs")
      let r₁ ← r.2.fReaddir noEntry
      let r₂ ← r₁.2.2.fReaddir r₁.2.1
      let r₃ ← r₂.2.2.fReaddir r₂.2.1
      pure ([r.1, r₁.1, r₂.1, r₃.1], [r₁.2.1, r₂.2.1, r₃.2.1]))
    (a := ([.ok, .ok, .ok, .ok], [aText, bText, bText.unnamed]))
    Device.serve_step Device.serve_quiet (by decide +kernel)
  simp only [executes_bind_quiet, executes_pure, Prod.mk.injEq, List.cons.injEq, and_true] at hplay
  obtain ⟨⟨_, dp₁⟩, fs₁, dev₁, hopen, ⟨_, _, dp₂⟩, fs₂, dev₂, hread₁, ⟨_, _, dp₃⟩, fs₃, dev₃,
    hread₂, ⟨_, _, dp₄⟩, fs₄, dev₄, hread₃, ⟨⟨rfl, rfl, rfl, rfl⟩, rfl, rfl, rfl⟩, rfl, rfl⟩ :=
    hplay
  exact ⟨⟨fs, dev, false, dp₄, _⟩, ⟨filedState, rfl, ⟨fs₁, dev₁, false, dp₁, noEntry⟩, ⟨hopen, rfl⟩,
    ⟨fs₂, dev₂, false, dp₂, aText⟩, ⟨hread₁, rfl⟩, _, rfl, ⟨fs₃, dev₃, false, dp₃, bText⟩,
    ⟨hread₂, rfl⟩, _, rfl, ⟨fs, dev, false, dp₄, _⟩, ⟨hread₃, rfl⟩, _, rfl, _, rfl, rfl⟩, rfl⟩

theorem list_on_device_floppy : ∃ s', Follows dirStep filedState nlstCalls s' ∧
    namesSent nlstCalls = some [bytes "A.TXT", bytes "B.TXT"] ∧
      Presents floppy filed s'.fs s'.dev := by
  obtain ⟨s', hserved, hquiet⟩ := follows_nlstCalls
  obtain ⟨bound, hshows⟩ :=
    (list_on_device floppy_sound floppy_rooted holdsDirs_filed inDocs).2
  have hnames : dirNames filedVolume inDocs.currentdir = some [bytes "A.TXT", bytes "B.TXT"] := by
    decide +kernel
  have hsent := hshows (bound + 3) (Nat.le_add_right _ _) [] none filedState s' [] nlstCalls _
    browsing_filed (runs_nlstCalls bound) hserved (.inl hquiet)
  rw [hnames] at hsent
  exact ⟨s', hserved, hsent⟩

end Entries

end FtpServer

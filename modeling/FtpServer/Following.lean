import FtpServer.Directory

/-! Paths on the sectors of a volume: `follow_path` and `f_opendir` of `ff.c` come to what `Volume`
says of the directories that the sectors hold. -/

namespace FtpServer
open Interaction CString

section Source

/-- `dir_find` for a segment of a path; a directory that is not there has an error of its own. -/
def Dir.findSegment (dp : Dir) (seg : Segment) : DirOp Dir :=
  tryCatch (Dir.dirFind { dp with fn := seg.fn }) fun e =>
    leave (if e.1 = .noFile ∧ seg.last = false then .noPath else e.1) e.2

def Dir.followLoop : Nat → Dir → Bytes → DirOp Dir
  | 0, _, _ => liftM (stuck : FatFs Dir)
  | fuel + 1, dp, path =>
    match createName path with
    | .error rc => leave rc dp
    | .ok seg => do
      let dp ← dp.findSegment seg
      if seg.last = true then pure dp
      else do
        let fs ← get
        match dp.dir with
        | none => liftM (stuck : FatFs Dir)
        | some dir =>
          -- it is not a sub-directory and cannot be followed
          if fs.win.get (dir + 11) &&& amDir = 0 then leave .noPath dp
          else Dir.followLoop fuel { dp with sclust := ldClust fs.toGeometry fs.win dir } seg.rest

def Dir.origin (dp : Dir) : DirOp Dir := do
  let dp ← tryCatch (dp.dirSdi 0) fun e => leave e.1 { e.2 with dir := none }
  pure { dp with dir := none }

def Dir.followStripped (dp : Dir) : Bytes → DirOp Dir
  | [] => dp.origin
  | c :: p => if c < byte ' ' then dp.origin else dp.followLoop ((c :: p).length + 1) (c :: p)

def Dir.followPath (dp : Dir) (path : Bytes) : DirOp Dir :=
  Dir.followStripped { dp with sclust := 0 } (stripSeparator path)

/-- `f_opendir` once the volume is found. -/
def Dir.enter (dp : Dir) (path : Bytes) : DirOp Dir := do
  let dp ← dp.followPath path
  let fs ← get
  match dp.dir with
  | none => Dir.dirSdi { dp with id := fs.id } 0
  | some dir =>
    if fs.win.get (dir + 11) &&& amDir = 0 then leave .noPath dp
    else Dir.dirSdi { dp with sclust := ldClust fs.toGeometry fs.win dir, id := fs.id } 0

def Dir.fOpendir (dp : Dir) (path : Bytes) : FatFs (FResult × Dir) := do
  let opened : DirOp Dir :=
    match getLdnumber path with
    | none => leave .invalidDrive dp
    | some path => tryCatch (Dir.enter { dp with attached := true } path) fun e =>
        leave (if e.1 = .noFile then .noPath else e.1) e.2
  match ← opened.run with
  | .error e => pure (e.1, { e.2 with attached := false })
  | .ok dp => pure (.ok, dp)

end Source

/-- The sectors hold the directories of `u`, from the root on as far as paths lead. -/
structure HoldsDirs (g : Geometry) (v : Sectors) (u : Volume) (dirs : UInt32 → Prop) : Prop where
  root : dirs 0
  table : ∀ c, dirs c → ∃ area, DirAt g v c.toNat area ∧ u.table c = some (area.table g v)
  sub : ∀ c list path seg dir, dirs c → u.table c = some list → createName path = .ok seg →
    dirFind seg.fn list = some dir → dir.attr &&& amDir ≠ 0 → dirs dir.clust

structure DirShown (g : Geometry) (v : Sectors) (attached : Bool) (dir : DirEntry) (dp : Dir)
    (fs : Fatfs) (dev : Device) : Prop where
  shows : Presents g v fs dev
  attached : dp.attached = attached
  window : fs.win = v dp.sect
  entry : ∃ ptr, dp.dir = some ptr ∧ dirEntry g (v dp.sect) ptr = dir

structure PathFollowed (g : Geometry) (v : Sectors) (dirs : UInt32 → Prop) (attached : Bool)
    (dir : DirEntry) (dp : Dir) (fs : Fatfs) (dev : Device) : Prop extends
    DirShown g v attached dir dp fs dev where
  sub : dir.attr &&& amDir ≠ 0 → dirs dir.clust

structure PathFailed {α : Type} (g : Geometry) (v : Sectors) (answer : Except FResult α)
    (e : FResult × Dir) (fs : Fatfs) (dev : Device) : Prop where
  shows : Presents g v fs dev
  outcome : e.1 = .diskErr ∨ answer = .error e.1

section Paths
variable {g : Geometry} {v : Sectors} {u : Volume} {dirs : UInt32 → Prop} {fs : Fatfs}
  {dev : Device} {dp : Dir} {path : Bytes} {c : UInt32}

theorem ldClust_lt (win : Sector) (dir : Nat) : ldClust g win dir < 2 ^ 32 := by
  have hlow := Packed.word_lt (m := win.get) (dir + 26)
  have hhigh := Packed.word_lt (m := win.get) (dir + 20)
  rw [ldClust, ldWord_eq, ldWord_eq, or_shiftLeft_word hlow]
  split <;> omega

theorem toNat_clust (win : Sector) (ptr : Nat) :
    (dirEntry g win ptr).clust.toNat = ldClust g win ptr :=
  UInt32.toNat_ofNat_of_lt' (ldClust_lt win ptr)

theorem ensuresElse_findSegment (hg : g.Sound) (hroot : g.Rooted) {area : DirArea} {seg : Segment}
    (hdir : DirAt g v dp.sclust area) (h : Presents g v fs dev) :
    EnsuresElse deviceStep (dp.findSegment seg) fs dev
      (fun dp' fs' dev' => ∃ dir, dirFind seg.fn (area.table g v) = some dir ∧
        DirShown g v dp.attached dir dp' fs' dev')
      (fun e fs' dev' => Presents g v fs' dev' ∧ (e.1 = .diskErr ∨
        dirFind seg.fn (area.table g v) = none ∧
          e.1 = if seg.last = true then .noFile else .noPath)) := by
  rw [Dir.findSegment, ensuresElse_tryCatch]
  have hdir' : DirAt g v ({ dp with fn := seg.fn } : Dir).sclust area := hdir
  refine EnsuresElse.mono (ensuresElse_dirFind hg hroot hdir' h) ?_ ?_
  · rintro dp' fs' dev' ⟨hshows, hbase, hwindow, j, hon, hfound⟩
    have hattached : dp'.attached = dp.attached := by rw [hbase]
    refine ⟨_, hfound, hshows, hattached, hwindow, _, hon.dir, ?_⟩
    rw [hon.sect]
    rfl
  · rintro ⟨res, dp'⟩ fs' dev' ⟨hshows, -, ⟨rfl, hnone⟩ | rfl⟩ <;>
    refine (ensuresElse_throw _).mpr ⟨hshows, ?_⟩
    · refine .inr ⟨hnone, ?_⟩
      cases seg.last <;> rfl
    · exact .inl rfl

theorem ensuresElse_followLoop (hg : g.Sound) (hroot : g.Rooted) (hheld : HoldsDirs g v u dirs)
    {n : Nat} (hlen : path.length < n) (hc : dirs c) (hsclust : dp.sclust = c.toNat)
    (h : Presents g v fs dev) :
    EnsuresElse deviceStep (dp.followLoop n path) fs dev
      (fun dp' fs' dev' => ∃ dir, followLoop u n c path = .ok dir ∧
        PathFollowed g v dirs dp.attached dir dp' fs' dev')
      (PathFailed g v (followLoop u n c path)) := by
  induction n generalizing path c dp fs dev with
  | zero => exact absurd hlen (Nat.not_lt_zero _)
  | succ n ih =>
    obtain ⟨area, hdir, htable⟩ := hheld.table c hc
    rw [← hsclust] at hdir
    rw [Dir.followLoop, followLoop]
    cases hname : createName path with
    | error rc => exact (ensuresElse_throw _).mpr ⟨h, .inr rfl⟩
    | ok seg =>
      have hshort := createName_shorter hname
      simp only [followSegment, dirSdi, htable, ensuresElse_bind]
      apply (ensuresElse_findSegment hg hroot hdir h).mono
      · rintro dp' fs' dev' ⟨dir, hfound, hshown⟩
        obtain ⟨ptr, hptr, hentry⟩ := hshown.entry
        have hsub := hheld.sub c _ path seg dir hc htable hname hfound
        have hattr : fs'.win.get (ptr + 11) = dir.attr := by
          rw [hshown.window, ← hentry]
          rfl
        simp only [ensuresElse_ite, ensuresElse_pure, ensuresElse_bind, ensuresElse_get, hptr,
          leave, ensuresElse_throw, hfound, hattr]
        refine ⟨fun hlast => ⟨dir, if_pos hlast, hshown, hsub⟩, fun hmore =>
          ⟨fun hfile => ⟨hshown.shows, .inr ?_⟩, fun hfolder => ?_⟩⟩
        · rw [if_neg hmore, if_pos hfile]
        · -- the window still shows the entry whose start cluster is read
          rw [if_neg hmore, if_neg hfolder, ← hshown.attached]
          refine ih (by omega) (hsub hfolder) ?_ hshown.shows
          rw [hshown.window, hshown.shows.geometry, ← hentry]
          exact (toNat_clust _ _).symm
      · rintro e fs' dev' ⟨hshows, herr | ⟨hnone, herr⟩⟩
        · exact ⟨hshows, .inl herr⟩
        · refine ⟨hshows, .inr ?_⟩
          rw [hnone, herr]

def FollowedTo (g : Geometry) (v : Sectors) (dirs : UInt32 → Prop) (attached : Bool) :
    Option DirEntry → Dir → Fatfs → Device → Prop
  | none, dp, fs, dev =>
    Presents g v fs dev ∧ dp.attached = attached ∧ dp.dir = none ∧ dp.sclust = 0
  | some dir, dp, fs, dev => PathFollowed g v dirs attached dir dp fs dev

theorem ensuresElse_origin (hg : g.Sound) (hroot : g.Rooted) (hheld : HoldsDirs g v u dirs)
    (hsclust : dp.sclust = 0) (h : Presents g v fs dev)
    {fail : FResult × Dir → Fatfs → Device → Prop} :
    EnsuresElse deviceStep dp.origin fs dev (FollowedTo g v dirs dp.attached none) fail := by
  obtain ⟨area, hdir, -⟩ := hheld.table 0 hheld.root
  simp only [Dir.origin, ensuresElse_bind, ensuresElse_tryCatch, ensuresElse_pure]
  apply (ensuresElse_dirSdi hg hroot (by rwa [hsclust]) h).mono
  · rintro dp' fs' dev' ⟨hshows, hbase, -⟩
    refine ⟨hshows, congrArg DirBase.attached hbase, rfl, ?_⟩
    exact (congrArg DirBase.sclust hbase).trans hsclust
  · exact fun _ _ _ hfail => hfail

theorem ensuresElse_followPath (hg : g.Sound) (hroot : g.Rooted) (hheld : HoldsDirs g v u dirs)
    (h : Presents g v fs dev) :
    EnsuresElse deviceStep (dp.followPath path) fs dev
      (fun dp' fs' dev' => ∃ found, followPath u path = .ok found ∧
        FollowedTo g v dirs dp.attached found dp' fs' dev')
      (PathFailed g v (followPath u path)) := by
  have horigin : EnsuresElse deviceStep (Dir.origin { dp with sclust := 0 }) fs dev
      (FollowedTo g v dirs dp.attached none) (PathFailed g v (followPath u path)) :=
    ensuresElse_origin hg hroot hheld rfl h
  rw [Dir.followPath, followPath]
  rw [followPath] at horigin
  cases hpath : stripSeparator path with
  | nil =>
    rw [hpath] at horigin
    exact horigin.mono (fun dp' fs' dev' hto => ⟨none, rfl, hto⟩) fun _ _ _ hfail => hfail
  | cons b p =>
    rw [hpath] at horigin
    rw [Dir.followStripped, followStripped, ensuresElse_ite]
    refine ⟨fun hend => ?_, fun hmore => ?_⟩
    · rw [followStripped, if_pos hend] at horigin
      rw [if_pos hend]
      exact horigin.mono (fun dp' fs' dev' hto => ⟨none, rfl, hto⟩) fun _ _ _ hfail => hfail
    · rw [if_neg hmore]
      refine EnsuresElse.mono (ensuresElse_followLoop hg hroot hheld (Nat.lt_succ_self _)
        hheld.root rfl h) ?_ ?_
      · rintro dp' fs' dev' ⟨dir, hfollowed, hto⟩
        exact ⟨some dir, by rw [hfollowed]; rfl, hto⟩
      · rintro e fs' dev' ⟨hshows, houtcome⟩
        refine ⟨hshows, houtcome.imp_right fun herr => ?_⟩
        rw [herr]
        rfl

def enterDir (u : Volume) (path : Bytes) : Except FResult (List DirEntry) :=
  match followPath u path with
  | .error rc => .error rc
  | .ok none => dirSdi u 0
  | .ok (some dir) => if dir.attr &&& amDir = 0 then .error .noPath else dirSdi u dir.clust

theorem openDir_eq : openDir u path =
    match getLdnumber path with
    | none => .error .invalidDrive
    | some path => (enterDir u path).mapError fun rc => if rc = .noFile then .noPath else rc := by
  unfold openDir enterDir
  cases getLdnumber path with
  | none => rfl
  | some path =>
    cases hpath : followPath u path with
    | error rc => simp [hpath, bind, Except.bind]
    | ok found => cases found <;> simp [hpath, bind, Except.bind]

theorem nameChar_error {st : NameState} {b : Byte} {rc : FResult}
    (h : nameChar st b = .error rc) : rc = .invalidName := by
  unfold nameChar at h
  split at h
  · split at h
    · exact (Except.error.inj h).symm
    · cases h
  · dsimp only at h
    split_ifs at h <;> exact (Except.error.inj h).symm

theorem createNameLoop_error {st : NameState} {p : Bytes} {rc : FResult}
    (h : createNameLoop st p = .error rc) : rc = .invalidName := by
  induction p generalizing st with
  | nil => cases h
  | cons b p ih =>
    rw [createNameLoop] at h
    split at h
    · cases h
    · cases hchar : nameChar st b with
      | error rc' =>
        rw [hchar] at h
        cases h
        exact nameChar_error hchar
      | ok st' =>
        rw [hchar] at h
        exact ih h

theorem createName_error {rc : FResult} (h : createName path = .error rc) : rc = .invalidName := by
  rw [createName] at h
  cases hloop : createNameLoop nameStart (path.dropWhile isSeparator) with
  | error rc' =>
    rw [hloop] at h
    cases h
    exact createNameLoop_error hloop
  | ok answer =>
    obtain ⟨b, rest, st⟩ := answer
    rw [hloop] at h
    dsimp only [finishName] at h
    split at h
    · exact (Except.error.inj h).symm
    · cases h

theorem dirSdi_error {rc : FResult} (h : dirSdi u c = .error rc) : rc = .intErr := by
  rw [dirSdi] at h
  split at h
  · exact (Except.error.inj h).symm
  · cases h

theorem followLoop_error {n : Nat} {rc : FResult} (h : followLoop u n c path = .error rc) :
    rc ≠ .ok := by
  induction n generalizing c path with
  | zero =>
    cases h
    decide
  | succ n ih =>
    rw [followLoop] at h
    cases hname : createName path with
    | error rc' =>
      rw [hname] at h
      cases h
      rw [createName_error hname]
      decide
    | ok seg =>
      rw [hname] at h
      dsimp only [followSegment] at h
      split at h
      · rename_i hsdi
        cases h
        rw [dirSdi_error hsdi]
        decide
      · split at h
        · cases h
          split <;> decide
        · split_ifs at h
          · cases h
            decide
          · exact ih h

theorem enterDir_error {rc : FResult} (h : enterDir u path = .error rc) : rc ≠ .ok := by
  rw [enterDir, followPath] at h
  cases hpath : stripSeparator path with
  | nil =>
    rw [hpath] at h
    rw [dirSdi_error h]
    decide
  | cons b p =>
    rw [hpath, followStripped] at h
    split_ifs at h
    · rw [dirSdi_error h]
      decide
    · cases hloop : followLoop u ((b :: p).length + 1) 0 (b :: p) with
      | error rc' =>
        rw [hloop] at h
        cases h
        exact followLoop_error hloop
      | ok dir =>
        rw [hloop] at h
        simp only [Except.map] at h
        split_ifs at h
        · cases h
          decide
        · rw [dirSdi_error h]
          decide

theorem openDir_error {rc : FResult} (h : openDir u path = .error rc) : rc ≠ .ok := by
  rw [openDir_eq] at h
  split at h
  · cases h
    decide
  · rename_i p _
    cases henter : enterDir u p with
    | error rc' =>
      rw [henter] at h
      cases h
      dsimp only
      split
      · decide
      · exact enterDir_error henter
    | ok list =>
      rw [henter] at h
      cases h

structure Listing (g : Geometry) (v : Sectors) (dp : Dir) (left : List FilInfo) : Prop where
  attached : dp.attached = true
  id : dp.id = g.id
  rest : dp.sect = 0 ∧ left = [] ∨
    ∃ area i, DirAt g v dp.sclust area ∧ DirOn g area dp i ∧
      left = readable ((area.table g v).drop i)

theorem ensuresElse_rewind (hg : g.Sound) (hroot : g.Rooted) (hheld : HoldsDirs g v u dirs)
    (hc : dirs c) (hsclust : dp.sclust = c.toNat) (hattached : dp.attached = true)
    (hid : dp.id = g.id) (h : Presents g v fs dev)
    {fail : FResult × Dir → Fatfs → Device → Prop} :
    EnsuresElse deviceStep (dp.dirSdi 0) fs dev
      (fun dp' fs' dev' => Presents g v fs' dev' ∧
        ∃ list, dirSdi u c = .ok list ∧ Listing g v dp' (readable list)) fail := by
  obtain ⟨area, hdir, htable⟩ := hheld.table c hc
  rw [← hsclust] at hdir
  apply (ensuresElse_dirSdi hg hroot hdir h).mono
  · rintro dp' fs' dev' ⟨hshows, hbase, hon⟩
    refine ⟨hshows, area.table g v, by rw [dirSdi, htable], ?_, ?_,
      .inr ⟨area, 0, ?_, hon, rfl⟩⟩ <;>
      rwa [hbase]
  · exact fun _ _ _ hfail => hfail

theorem ensuresElse_enter (hg : g.Sound) (hroot : g.Rooted) (hheld : HoldsDirs g v u dirs)
    (hattached : dp.attached = true) (h : Presents g v fs dev) :
    EnsuresElse deviceStep (dp.enter path) fs dev
      (fun dp' fs' dev' => Presents g v fs' dev' ∧
        ∃ list, enterDir u path = .ok list ∧ Listing g v dp' (readable list))
      (PathFailed g v (enterDir u path)) := by
  rw [Dir.enter, ensuresElse_bind]
  apply (ensuresElse_followPath hg hroot hheld h).mono
  · rintro dp' fs' dev' ⟨found, hpath, hto⟩
    rw [ensuresElse_bind, ensuresElse_get, enterDir, hpath]
    cases found with
    | none =>
      obtain ⟨hshows, hattached', hdir, hsclust⟩ := hto
      simp only [hdir]
      refine ensuresElse_rewind hg hroot hheld hheld.root ?_ ?_ ?_ hshows
      · exact hsclust
      · exact hattached'.trans hattached
      · exact congrArg Geometry.id hshows.geometry
    | some dir =>
      obtain ⟨⟨hshows, hattached', hwindow, ptr, hptr, hentry⟩, hsub⟩ := hto
      have hattr : fs'.win.get (ptr + 11) = dir.attr := by
        rw [hwindow, ← hentry]
        rfl
      simp only [hptr, ensuresElse_ite, leave, ensuresElse_throw, hattr]
      refine ⟨fun hfile => ⟨hshows, .inr (if_pos hfile)⟩, fun hfolder => ?_⟩
      rw [if_neg hfolder]
      refine ensuresElse_rewind hg hroot hheld (hsub hfolder) ?_ ?_ ?_ hshows
      · rw [hwindow, hshows.geometry, ← hentry]
        exact (toNat_clust _ _).symm
      · exact hattached'.trans hattached
      · exact congrArg Geometry.id hshows.geometry
  · rintro e fs' dev' ⟨hshows, houtcome⟩
    refine ⟨hshows, houtcome.imp_right fun herr => ?_⟩
    rw [enterDir, herr]

structure DirOpened (g : Geometry) (v : Sectors) (u : Volume) (path : Bytes) (r : FResult × Dir)
    (fs : Fatfs) (dev : Device) : Prop where
  shows : Presents g v fs dev
  outcome : r.1 = .ok ∧ (∃ list, openDir u path = .ok list ∧ Listing g v r.2 (readable list)) ∨
    r.2.attached = false ∧ (r.1 = .diskErr ∨ openDir u path = .error r.1)

theorem ensures_fOpendir (hg : g.Sound) (hroot : g.Rooted) (hheld : HoldsDirs g v u dirs)
    (h : Presents g v fs dev) :
    Ensures deviceStep (dp.fOpendir path) fs dev (DirOpened g v u path) := by
  rw [Dir.fOpendir, ensures_bind]
  have hopened : EnsuresElse deviceStep (match getLdnumber path with
      | none => leave .invalidDrive dp
      | some path => tryCatch (Dir.enter { dp with attached := true } path) fun e =>
          leave (if e.1 = .noFile then .noPath else e.1) e.2 : DirOp Dir) fs dev
      (fun dp' fs' dev' => Presents g v fs' dev' ∧
        ∃ list, openDir u path = .ok list ∧ Listing g v dp' (readable list))
      (PathFailed g v (openDir u path)) := by
    rw [openDir_eq]
    cases getLdnumber path with
    | none => exact (ensuresElse_throw _).mpr ⟨h, .inr rfl⟩
    | some path =>
      dsimp only
      rw [ensuresElse_tryCatch]
      refine EnsuresElse.mono (ensuresElse_enter hg hroot hheld rfl h) ?_ ?_
      · rintro dp' fs' dev' ⟨hshows, list, henter, hlist⟩
        exact ⟨hshows, list, by rw [henter]; rfl, hlist⟩
      · rintro e fs' dev' ⟨hshows, houtcome⟩
        refine (ensuresElse_throw _).mpr ⟨hshows, ?_⟩
        rcases houtcome with herr | herr
        · left
          rw [herr]
          rfl
        · right
          rw [herr]
          rfl
  apply Ensures.mono hopened
  rintro r fs' dev' (⟨dp', rfl, hshows, hlist⟩ | ⟨e, rfl, hshows, herr⟩)
  · exact (ensures_pure _).mpr ⟨hshows, .inl ⟨rfl, hlist⟩⟩
  · exact (ensures_pure _).mpr ⟨hshows, .inr ⟨rfl, herr⟩⟩

end Paths

section Aborting
variable {g : Geometry}

theorem dirAborts_findSegment (hg : g.Sound) (dp : Dir) (seg : Segment) :
    DirAborts g True (dp.findSegment seg) := by
  refine MaintainsElse.tryCatch (dirAborts_dirFind hg _) fun e => maintainsElse_throw ?_
  intro hfound _
  dsimp only
  split
  · exact nofun
  · exact hfound trivial

theorem dirAborts_followLoop (hg : g.Sound) (fuel : Nat) (dp : Dir) (path : Bytes) :
    DirAborts g True (dp.followLoop fuel path) := by
  induction fuel generalizing dp path with
  | zero => exact Maintains.lift maintains_stuck
  | succ fuel ih =>
    rw [Dir.followLoop]
    cases hname : createName path with
    | error rc =>
      refine dirAborts_leave fun _ => ?_
      rw [createName_error hname]
      exact nofun
    | ok seg =>
      refine (dirAborts_findSegment hg dp seg).bind fun dp => maintainsElse_ite
        (fun _ => dirAborts_pure _) fun _ => maintainsElse_get fun fs _ => ?_
      cases dp.dir with
      | none => exact Maintains.lift maintains_stuck
      | some dir =>
        exact maintainsElse_ite (fun _ => dirAborts_leave fun _ => nofun) fun _ => ih _ _

theorem dirAborts_followPath (hg : g.Sound) (dp : Dir) (path : Bytes) :
    DirAborts g True (dp.followPath path) := by
  have horigin : DirAborts g True (Dir.origin { dp with sclust := 0 }) :=
    DirAborts.bind (MaintainsElse.tryCatch (dirAborts_dirSdi hg _ _)
      fun e => maintainsElse_throw id) fun _ => dirAborts_pure _
  rw [Dir.followPath]
  cases stripSeparator path with
  | nil => exact horigin
  | cons b p =>
    exact maintainsElse_ite (fun _ => horigin) fun _ => dirAborts_followLoop hg _ _ _

theorem dirAborts_enter (hg : g.Sound) (dp : Dir) (path : Bytes) :
    DirAborts g True (dp.enter path) := by
  refine (dirAborts_followPath hg dp path).bind fun dp => maintainsElse_get fun fs _ => ?_
  cases dp.dir with
  | none => exact dirAborts_dirSdi hg _ _
  | some dir =>
    exact maintainsElse_ite (fun _ => dirAborts_leave fun _ => nofun)
      fun _ => dirAborts_dirSdi hg _ _

theorem maintains_fOpendir (hg : g.Sound) (dp : Dir) (path : Bytes) :
    Maintains (Around g fun _ => True) failedTransfer (dp.fOpendir path) (·.1 ≠ .diskErr) := by
  have hopened : DirAborts g True (match getLdnumber path with
      | none => leave .invalidDrive dp
      | some path => tryCatch (Dir.enter { dp with attached := true } path) fun e =>
          leave (if e.1 = .noFile then .noPath else e.1) e.2 : DirOp Dir) := by
    cases getLdnumber path with
    | none => exact dirAborts_leave fun _ => nofun
    | some path =>
      refine MaintainsElse.tryCatch (dirAborts_enter hg _ _) fun e => maintainsElse_throw ?_
      intro hentered _
      dsimp only
      split
      · exact nofun
      · exact hentered trivial
  refine Maintains.bind hopened fun r => ?_
  cases r with
  | error e => exact maintains_pure fun he => he trivial
  | ok dp => exact maintains_pure fun _ => nofun

end Aborting

end FtpServer

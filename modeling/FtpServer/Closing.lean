import FtpServer.Writing
import FtpServer.Volume

/-! `f_sync` and `f_close`: the buffer goes to the device and the length and first cluster of
the file into its directory entry. What an opened file is built from again is there to be read. -/

namespace FtpServer
open Interaction CString Packed

section Source

def fattime : Nat := (2017 - 1980) <<< 25 ||| 2 <<< 21 ||| 9 <<< 16 ||| 22 <<< 11 ||| 30 <<< 5

def ldClust (g : Geometry) (win : Sector) (dir : Nat) : Nat :=
  let cl := ldWord win (dir + 26)
  if g.fsType = .fat32 then cl ||| ldWord win (dir + 20) <<< 16 else cl

def stClust (win : Sector) (dir cl : Nat) : Sector :=
  stWord (stWord win (dir + 26) cl) (dir + 20) (cl >>> 16)

def Fil.entry (fp : Fil) (win : Sector) : Sector :=
  let dir := fp.dirPtr
  let win := win.store (dir + 11) [win.get (dir + 11) ||| amArc]
  let win := stDword win (dir + 28) fp.fsize
  let win := stClust win dir fp.sclust
  let win := stDword win (dir + 22) fattime
  stWord win (dir + 18) 0

def Fil.fSync (fp : Fil) : FatFs (FResult × Fil) := do
  let res ← validate fp
  if res = .ok then
    if fp.written = true then do
      match ← (flushBuf fp).run with
      -- `LEAVE_FF` and not `ABORT`: the file object keeps no error
      | .error (res, _) => pure (res, fp)
      | .ok fp => do
        let res ← moveWindow fp.dirSect
        if res = .ok then do
          let fs ← get
          storeWin (fp.entry fs.win)
          let res ← syncFs
          pure (res, { fp with written := false })
        else pure (res, fp)
    else pure (res, fp)
  else pure (res, fp)

def Fil.fClose (fp : Fil) : FatFs (FResult × Fil) := do
  let (res, fp) ← fp.fSync
  if res = .ok then do
    let res ← validate fp
    if res = .ok then pure (res, { fp with attached := false })
    else pure (res, fp)
  else pure (res, fp)

end Source

section Entry
variable {g : Geometry} {win : Sector} {dir cl : Nat} {fp : Fil}

theorem or_shiftLeft_word {a : Nat} (h : a < 65536) (b : Nat) : a ||| b <<< 16 = a + 65536 * b := by
  rw [Nat.or_comm, ← Nat.shiftLeft_add_eq_or_of_lt (show a < 2 ^ 16 from h), Nat.shiftLeft_eq]
  omega

theorem ldClust_eq (hlow : word win.get (dir + 26) = cl % 65536)
    (hhigh : word win.get (dir + 20) = cl / 65536) (hcl : cl ≤ endMark g.fsType)
    (hmounted : g.fsType ≠ .unmounted) : ldClust g win dir = cl := by
  rw [ldClust, ldWord_eq, ldWord_eq, hlow, hhigh, or_shiftLeft_word (Nat.mod_lt _ (by decide))]
  split
  · omega
  · rename_i hfat
    apply Nat.mod_eq_of_lt
    cases htype : g.fsType with
    | unmounted => exact absurd htype hmounted
    | fat12 | fat16 =>
      rw [htype] at hcl
      simp only [endMark] at hcl
      omega
    | fat32 => exact absurd htype hfat

theorem get_entry (h : fp.dirPtr + 32 ≤ 512) (win : Sector) : (fp.entry win).get =
    putWord (putDword (putWord (putWord (putDword (Function.update win.get (fp.dirPtr + 11)
      (win.get (fp.dirPtr + 11) ||| amArc)) (fp.dirPtr + 28) fp.fsize) (fp.dirPtr + 26) fp.sclust)
      (fp.dirPtr + 20) (fp.sclust >>> 16)) (fp.dirPtr + 22) fattime) (fp.dirPtr + 18) 0 := by
  have hstore : (win.store (fp.dirPtr + 11) [win.get (fp.dirPtr + 11) ||| amArc]).get =
      Function.update win.get (fp.dirPtr + 11) (win.get (fp.dirPtr + 11) ||| amArc) := by
    funext j
    rw [Sector.get_store_one (by omega), Function.update_apply]
  rw [Fil.entry, stClust, get_stWord (by omega), get_stDword (by omega), get_stWord (by omega),
    get_stWord (by omega), get_stDword (by omega), hstore]

theorem entry_read (h : fp.dirPtr + 32 ≤ 512) (win : Sector) (hsize : fp.fsize < 2 ^ 32)
    (hcl : fp.sclust ≤ endMark g.fsType) (hmounted : g.fsType ≠ .unmounted) :
    ldDword (fp.entry win) (fp.dirPtr + 28) = fp.fsize ∧
      ldClust g (fp.entry win) fp.dirPtr = fp.sclust := by
  have hlt : fp.sclust < 2 ^ 32 := by
    refine hcl.trans_lt ?_
    cases g.fsType <;> decide
  have hentry := get_entry h win
  generalize Function.update win.get _ _ = m at hentry
  refine ⟨?_, ldClust_eq ?_ ?_ hcl hmounted⟩
  · have hbyte : ∀ j, fp.dirPtr + 28 ≤ j →
        (fp.entry win).get j = putDword m (fp.dirPtr + 28) fp.fsize j := by
      intro j hj
      rw [hentry, putWord_of_ne _ (by omega) (by omega), putDword_of_apart _ (by omega),
        putWord_of_ne _ (by omega) (by omega), putWord_of_ne _ (by omega) (by omega)]
    have hsame : dword (fp.entry win).get (fp.dirPtr + 28) =
        dword (putDword m (fp.dirPtr + 28) fp.fsize) (fp.dirPtr + 28) := by
      rw [dword, dword, word_congr (hbyte _ (by omega)) (hbyte _ (by omega)),
        word_congr (hbyte _ (by omega)) (hbyte _ (by omega))]
    rw [ldDword_eq, hsame, dword_putDword, Nat.mod_eq_of_lt hsize]
  · have hbyte : ∀ j, fp.dirPtr + 26 ≤ j → j < fp.dirPtr + 28 → (fp.entry win).get j =
        putWord (putDword m (fp.dirPtr + 28) fp.fsize) (fp.dirPtr + 26) fp.sclust j := by
      intro j hj hj'
      rw [hentry, putWord_of_ne _ (by omega) (by omega), putDword_of_apart _ (by omega),
        putWord_of_ne _ (by omega) (by omega)]
    rw [word_congr (hbyte _ (by omega) (by omega)) (hbyte _ (by omega) (by omega)), word_putWord]
  · rw [hentry, word_putWord_of_apart _ (by omega), putDword, word_putWord_of_apart _ (by omega),
      word_putWord_of_apart _ (by omega), word_putWord, Nat.shiftRight_eq_div_pow]
    omega

theorem entry_frame (h : fp.dirPtr + 32 ≤ 512) {j : Nat}
    (hj : j < fp.dirPtr + 11 ∨ fp.dirPtr + 32 ≤ j) : (fp.entry win).get j = win.get j := by
  rw [get_entry h win, putWord_of_ne _ (by omega) (by omega), putDword_of_apart _ (by omega),
    putWord_of_ne _ (by omega) (by omega), putWord_of_ne _ (by omega) (by omega),
    putDword_of_apart _ (by omega), Function.update_of_ne (by omega)]

end Entry

section Sync
variable {g : Geometry} {w : Sectors} {fs : Fatfs} {dev : Device} {fp : Fil} {cs : List Nat}

/-- The directory entry of the file, in a sector that is no part of it. -/
structure Slot (g : Geometry) (w : Sectors) (cs : List Nat) (fp : FilBase) : Prop where
  elsewhere : Elsewhere g w cs fp.dirSect
  primary : g.Primary fp.dirSect
  low : g.fatbase ≤ fp.dirSect
  fits : fp.dirPtr + 32 ≤ 512

def Fil.recorded (fp : Fil) (w : Sectors) : Sectors :=
  Function.update w fp.dirSect (fp.entry (w fp.dirSect))

/-- What `f_sync` comes to. Once the entry is in the window it does not come back to it, whether or
not the device takes it. -/
structure Synchronized (g : Geometry) (w : Sectors) (fs : Fatfs) (fp : Fil) (cs : List Nat)
    (r : FResult × Fil) (fs' : Fatfs) (dev' : Device) (w' : Sectors) : Prop where
  placed : Placed g w' fs' dev' r.2 cs
  fil : ∃ dirty written, r.2 = { fp with dirty := dirty, written := written }
  window : fs'.winsect = fs.winsect ∨ fs'.winsect = fp.dirSect ∨ fs'.winsect = noSector ∨
    fs'.winsect < g.fatbase
  outcome :
    r.1 = .ok ∧ fp.written = false ∧ r.2 = fp ∧ w' = w ∧ fs' = fs ∨
    r.1 = .diskErr ∧ fp.written = true ∧ r.2.written = true ∧ w' = w ∨
    fp.written = true ∧ r.2.written = false ∧ r.2.dirty = false ∧ w' = fp.recorded w ∧
      (r.1 = .ok ∧ fs'.wflag = false ∨ r.1 = .diskErr)

theorem ensures_fSync (hg : g.Sound) (h : Placed g w fs dev fp cs) (hatt : fp.attached = true)
    (hslot : Slot g w cs fp.toFilBase) :
    Ensures deviceStep fp.fSync fs dev (fun r fs' dev' =>
      ∃ w', Synchronized g w fs fp cs r fs' dev' w') := by
  simp only [Fil.fSync, ensures_bind, h.validate hg hatt, ensures_ite, ensures_pure,
    not_true_eq_false, false_imp_iff, and_true, true_imp_iff]
  refine ⟨fun hwritten => ?_, fun hclean => ⟨w, h, ⟨_, _, rfl⟩,
    .inl rfl, .inl ⟨rfl, ?_, rfl, rfl, rfl⟩⟩⟩
  · apply Ensures.mono (ensuresElse_flushBuf hg h)
    rintro _ fs₁ dev₁ (⟨fp₁, rfl, hflushed⟩ | ⟨_, rfl, hplaced, rfl, rfl⟩)
    · have hplaced := hflushed.placed
      have hfil := hflushed.fil
      have hwindow := hflushed.window
      clear hflushed
      subst hwindow
      subst hfil
      obtain ⟨v, hshows, hover⟩ := hplaced.shows
      obtain rfl : v = w := (Fil.over_clean rfl).symm.trans hover
      simp only [ensures_bind]
      apply (ensures_moveWindow hg hshows hslot.primary).mono
      rintro res fs₂ dev₂ ⟨hmoved, -, ⟨rfl, hsect, hwin⟩ | ⟨rfl, hnear⟩⟩
      · -- the entry is in the window, and stays there if the device does not take it
        have hprimary : g.Primary fs₂.winsect := hsect ▸ hslot.primary
        have hmodified : Presents g (fp.recorded v)
            { fs₂ with win := fp.entry (v fp.dirSect), wflag := true } dev₂ := by
          rw [Fil.recorded, ← hsect]
          exact hmoved.modify hprimary _
        simp only [ensures_ite, ensures_bind, ensures_get, ensures_storeWin, ensures_pure, hwin]
        refine ⟨fun _ => ?_, fun hno => absurd trivial hno⟩
        apply (ensures_syncFs hg hmodified).mono
        rintro res fs₃ dev₃ ⟨hsynced, -, -, hwindow, houtcome⟩
        refine ⟨fp.recorded v, ⟨⟨_, hsynced, Fil.over_clean rfl⟩, h.id, h.clusters,
          h.nodup, fun hno => absurd hno Bool.false_ne_true, fun q hq heq => ?_⟩,
          ⟨false, false, rfl⟩, ?_, .inr (.inr ⟨hwritten, rfl, rfl, rfl, houtcome⟩)⟩
        · rcases hwindow with hsame | hbelow
          · have hdir : fp.dirSect = fileSect g cs q := hsect.symm.trans (hsame.symm.trans heq)
            exact hslot.elsewhere.ne hg h.clusters hq hdir
          · have hlow := (h.data hg hq).low
            rw [heq] at hbelow
            omega
        · exact .inr (hwindow.imp (fun hsame => hsame.trans hsect) .inr)
      · simp only [ensures_ite, ensures_pure]
        refine ⟨fun hno => absurd hno (by simp), fun _ => ⟨v, ⟨⟨v, hmoved, hover⟩, h.id,
          h.clusters, h.nodup, hplaced.loaded, fun q hq heq => ?_⟩, ⟨false, _, rfl⟩,
          hnear.imp_right fun hnone => .inr (.inl hnone),
          .inr (.inl ⟨rfl, hwritten, hwritten, rfl⟩)⟩⟩
        rcases hnear with hsame | hnone
        · exact h.apart q hq (hsame.symm.trans heq)
        · have hhigh := (h.data hg hq).high
          rw [← heq, hnone] at hhigh
          exact absurd hhigh (by decide)
    · exact (ensures_pure _).mpr ⟨w, hplaced, ⟨_, _, rfl⟩, .inl rfl,
        .inr (.inl ⟨rfl, hwritten, hwritten, rfl⟩)⟩
  · simpa using hclean

theorem ensures_fClose (hg : g.Sound) (h : Placed g w fs dev fp cs) (hatt : fp.attached = true)
    (hslot : Slot g w cs fp.toFilBase) :
    Ensures deviceStep fp.fClose fs dev (fun r fs' dev' => ∃ fp' w',
      Synchronized g w fs fp cs (r.1, fp') fs' dev' w' ∧
        r.2 = if r.1 = .ok then { fp' with attached := false } else fp') := by
  simp only [Fil.fClose, ensures_bind]
  apply (ensures_fSync hg h hatt hslot).mono
  rintro ⟨res, fp'⟩ fs' dev' ⟨w', hsynced⟩
  have hatt' : fp'.attached = true := by
    obtain ⟨dirty, written, hfil⟩ := hsynced.fil
    exact (congrArg (fun fp : Fil => fp.attached) hfil).trans hatt
  simp only [ensures_ite, ensures_bind, hsynced.placed.validate hg hatt', ensures_pure]
  exact ⟨fun hok => ⟨fun _ => ⟨fp', w', hok ▸ hsynced, (if_pos trivial).symm⟩,
    fun hno => absurd trivial hno⟩, fun herr => ⟨fp', w', hsynced, (if_neg herr).symm⟩⟩

end Sync

section Found
variable {g : Geometry} {v v' w : Sectors} {fs : Fatfs} {dev : Device} {fp : Fil} {cs : List Nat}
  {sect dir : Nat} {content : Bytes}

/-- What a volume says of a file by itself: the entry, the chain it leads to, and the bytes. -/
structure FileAt (g : Geometry) (v : Sectors) (sect dir : Nat) (content : Bytes) (cs : List Nat) :
    Prop where
  chain : cs = [] ∧ ldClust g (v sect) dir = 0 ∨
    g.Cluster (ldClust g (v sect) dir) ∧ Chain g (g.table v) (ldClust g (v sect) dir) cs
  size : ldDword (v sect) (dir + 28) = content.length
  room : content.length ≤ cs.length * g.csize * 512
  bytes : fileBytes g cs v 0 content.length = content

theorem FileAt.clusters (h : FileAt g v sect dir content cs) : ∀ c ∈ cs, g.Cluster c := by
  rcases h.chain with ⟨rfl, -⟩ | ⟨-, hchain⟩
  · simp
  · exact hchain.cluster

theorem fileBytes_of_sectors {n : Nat} (hroom : n ≤ cs.length * g.csize * 512)
    (h : ∀ q, FileHas g cs q → v' (fileSect g cs q) = v (fileSect g cs q)) :
    fileBytes g cs v' 0 n = fileBytes g cs v 0 n := by
  apply fileBytes_congr
  intro i hi
  exact h _ (Nat.div_lt_of_lt_mul (by omega))

theorem FileAt.congr (h : FileAt g v sect dir content cs) (hg : g.Sound) (hsect : g.Primary sect)
    (hsame : ∀ n, g.Primary n → v' n = v n) : FileAt g v' sect dir content cs := by
  have htable : ∀ c, g.Cluster c → g.table v' c = g.table v c := fun c hc =>
    table_congr hg (fun n hn => hsame n (hg.primary_inFat hn)) hc.2
  refine ⟨?_, ?_, h.room, ?_⟩
  · rw [hsame sect hsect]
    exact h.chain.imp_right fun hchain => ⟨hchain.1, hchain.2.frame fun k hk =>
      htable k (h.clusters k hk)⟩
  · rw [hsame sect hsect]
    exact h.size
  · rw [fileBytes_of_sectors h.room fun q hq => hsame _ ((hq.data hg h.clusters).primary hg)]
    exact h.bytes

theorem Placed.fileAt (h : Placed g w fs dev fp cs) (hlinked : Linked g w fp.toFilBase cs)
    (hg : g.Sound) (hslot : Slot g w cs fp.toFilBase) :
    FileAt g (fp.recorded w) fp.dirSect fp.dirPtr (fp.content g cs w) cs := by
  have hcl : fp.sclust ≤ endMark g.fsType := by
    rcases hlinked.chain with ⟨-, hnone⟩ | ⟨hcluster, -⟩
    · omega
    · exact hcluster.2.le.trans hg.marks
  obtain ⟨hsize, hclust⟩ :=
    entry_read hslot.fits (w fp.dirSect) hlinked.small hcl hg.mounted
  have hentry : fp.recorded w fp.dirSect = fp.entry (w fp.dirSect) := Function.update_self ..
  have hlen : (fp.content g cs w).length = fp.fsize := length_fileBytes
  have hother : ∀ n, n ≠ fp.dirSect → fp.recorded w n = w n := fun n hn =>
    Function.update_of_ne hn _ _
  refine ⟨?_, ?_, ?_, ?_⟩
  · rw [hentry, hclust]
    refine hlinked.chain.imp_right fun hchain => ⟨hchain.1, hchain.2.frame fun k hk => ?_⟩
    apply table_congr hg _ (h.clusters k hk).2
    intro n hn
    apply hother
    rintro rfl
    exact hslot.elsewhere.outside hn
  · rw [hentry, hsize, hlen]
  · rw [hlen]
    exact hlinked.size
  · rw [hlen]
    exact fileBytes_of_sectors hlinked.size fun q hq =>
      hother _ fun heq => hslot.elsewhere.ne hg h.clusters hq heq.symm

end Found

end FtpServer

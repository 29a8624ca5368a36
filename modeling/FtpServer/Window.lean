import FtpServer.Device

/-! The access window of `ff.c`: one sector of the volume in memory, written back when another
one is needed. What the volume holds for its user is the device with the window laid over
it; no failure of the device changes that. -/

namespace FtpServer
open Interaction CString

inductive FsType where
  | unmounted | fat12 | fat16 | fat32
  deriving DecidableEq, Repr

/-- The part of a `FATFS` that stays as `find_volume` sets it. -/
structure Geometry where
  fsType : FsType
  csize : Nat
  nFats : Nat
  id : Nat
  nRootdir : Nat
  nFatent : Nat
  fsize : Nat
  volbase : Nat
  fatbase : Nat
  dirbase : Nat
  database : Nat
  deriving DecidableEq, Repr

structure FsInfo where
  lastClust : Nat
  freeClust : Nat
  fsiFlag : UInt8
  deriving DecidableEq, Repr

structure Fatfs extends Geometry, FsInfo where
  wflag : Bool
  winsect : Nat
  win : Sector

abbrev FatFs := StateT Fatfs (Prog DiskCall DiskCall.Answer Empty)

section Source

def u32 (n : Nat) : Nat := n % 2 ^ 32

/-- The sector number of a window that shows no sector. -/
def noSector : Nat := 0xFFFFFFFF

def diskRead1 (sector : Nat) : FatFs (DResult × Sector) := do
  let (res, data) ← request (DiskCall.read sector 1)
  pure (res, data.get 0)

def diskWrite1 (win : Sector) (sector : Nat) : FatFs DResult :=
  request (DiskCall.write sector 1 #v[win])

/-- `for (nf = fs->n_fats; nf >= 2; nf--)` -/
def reflectFats (win : Sector) (fsize : Nat) : Nat → Nat → FatFs Unit
  | nf + 2, wsect => do
    let wsect := u32 (wsect + fsize)
    let _ ← diskWrite1 win wsect
    reflectFats win fsize (nf + 1) wsect
  | _, _ => pure ()

def syncWindow : FatFs FResult := do
  let fs ← get
  if fs.wflag = true then do
    let wsect := fs.winsect
    let res ← diskWrite1 fs.win wsect
    if res ≠ .ok then pure .diskErr
    else do
      modify fun fs => { fs with wflag := false }
      if u32 (wsect + 2 ^ 32 - fs.fatbase) < fs.fsize then do
        reflectFats fs.win fs.fsize fs.nFats wsect
        pure .ok
      else pure .ok
  else pure .ok

def moveWindow (sector : Nat) : FatFs FResult := do
  let fs ← get
  if sector ≠ fs.winsect then do
    let res ← syncWindow
    if res = .ok then do
      let (rd, data) ← diskRead1 sector
      if rd ≠ .ok then do
        modify fun fs => { fs with win := data, winsect := noSector }
        pure .diskErr
      else do
        modify fun fs => { fs with win := data, winsect := sector }
        pure .ok
    else pure res
  else pure .ok

/-- The sector that `sync_fs` builds, at `FSI_Free_Count` and `FSI_Nxt_Free`. -/
def fsinfoSector (info : FsInfo) : Sector :=
  let win := stWord .zero 510 0xAA55
  let win := stDword win 0 0x41615252
  let win := stDword win 484 0x61417272
  let win := stDword win 488 info.freeClust
  stDword win 492 info.lastClust

def ctrlSync : FatFs FResult := do
  let res ← request DiskCall.ctrlSync
  if res ≠ .ok then pure .diskErr else pure .ok

def syncFs : FatFs FResult := do
  let res ← syncWindow
  if res = .ok then do
    let fs ← get
    if fs.fsType = .fat32 ∧ fs.fsiFlag = 1 then do
      let win := fsinfoSector fs.toFsInfo
      let winsect := u32 (fs.volbase + 1)
      modify fun fs => { fs with win := win, winsect := winsect }
      let _ ← diskWrite1 win winsect
      modify fun fs => { fs with fsiFlag := 0 }
      ctrlSync
    else ctrlSync
  else pure res

end Source

def tableBytes (g : Geometry) : Nat :=
  match g.fsType with
  | .unmounted => 0
  | .fat12 => g.nFatent + g.nFatent / 2 + g.nFatent % 2
  | .fat16 => g.nFatent * 2
  | .fat32 => g.nFatent * 4

def endMark : FsType → Nat
  | .unmounted => 0
  | .fat12 => 0xFFF
  | .fat16 => 0xFFFF
  | .fat32 => 0x0FFFFFFF

/-- A volume whose parts lie one behind the other, in sectors that have a block each. -/
structure Geometry.Sound (g : Geometry) : Prop where
  mounted : g.fsType ≠ .unmounted
  copies : 1 ≤ g.nFats
  cluster : ∃ k ≤ 7, g.csize = 2 ^ k
  nonempty : 3 ≤ g.nFatent
  info : g.fsType = .fat32 → g.volbase + 1 < g.fatbase
  table : tableBytes g ≤ g.fsize * 512
  marks : g.nFatent ≤ endMark g.fsType
  fats : g.fatbase + g.nFats * g.fsize ≤ g.database
  clusters : g.database + (g.nFatent - 2) * g.csize ≤ 2 ^ 23

/-- The sectors that have their content from one place only: neither the further copies of
the FAT nor the FSINFO sector, which FatFs writes without looking at the result. -/
def Geometry.Primary (g : Geometry) (n : Nat) : Prop :=
  n < 2 ^ 23 ∧ ¬(g.fatbase + g.fsize ≤ n ∧ n < g.fatbase + g.nFats * g.fsize) ∧
    (g.fsType = .fat32 → n ≠ g.volbase + 1)

/-- The copies of the FAT agree where they could be written. -/
def Mirrored (g : Geometry) (dev : Device) : Prop :=
  ∀ i < g.fsize, ∀ j < g.nFats, dev.failed (g.fatbase + i) = false →
    dev.failed (g.fatbase + j * g.fsize + i) = false →
    dev.sectors (g.fatbase + j * g.fsize + i) = dev.sectors (g.fatbase + i)

/-- A volume of this geometry shows its user the sectors `v`: those on the device, but for
the one in a window that is still to be written back. -/
structure Presents (g : Geometry) (v : Sectors) (fs : Fatfs) (dev : Device) : Prop where
  geometry : fs.toGeometry = g
  win : g.Primary fs.winsect → fs.win = v fs.winsect
  device : ∀ n, g.Primary n → (fs.wflag = true → n ≠ fs.winsect) → dev.sectors n = v n
  dirty : fs.wflag = true → g.Primary fs.winsect
  mirrored : Mirrored g dev

/-- What `sync_window`, `move_window` and `sync_fs` come to: what is shown stays as it is. -/
structure Synced (g : Geometry) (v : Sectors) (fs : Fatfs) (res : FResult) (fs' : Fatfs)
    (dev' : Device) : Prop where
  shows : Presents g v fs' dev'
  outcome : res = .ok ∧ fs' = { fs with wflag := false } ∨ res = .diskErr ∧ fs' = fs

structure Moved (g : Geometry) (v : Sectors) (fs : Fatfs) (sector : Nat) (res : FResult)
    (fs' : Fatfs) (dev' : Device) : Prop where
  shows : Presents g v fs' dev'
  info : fs'.toFsInfo = fs.toFsInfo
  outcome : res = .ok ∧ fs'.winsect = sector ∧ fs'.win = v sector ∨
    res = .diskErr ∧ (fs'.winsect = fs.winsect ∨ fs'.winsect = noSector)
  clean : fs.wflag = false → fs'.wflag = false

structure Flushed (g : Geometry) (v : Sectors) (fs : Fatfs) (res : FResult) (fs' : Fatfs)
    (dev' : Device) : Prop where
  shows : Presents g v fs' dev'
  lastClust : fs'.lastClust = fs.lastClust
  freeClust : fs'.freeClust = fs.freeClust
  window : fs'.winsect = fs.winsect ∨ fs'.winsect < g.fatbase
  outcome : res = .ok ∧ fs'.wflag = false ∨ res = .diskErr

section Mirrors
variable {g : Geometry} {dev : Device}

theorem Geometry.Sound.fats_le (hg : g.Sound) : g.fatbase + g.nFats * g.fsize ≤ 2 ^ 23 :=
  (hg.fats.trans (Nat.le_add_right _ _)).trans hg.clusters

theorem copy_inj {f i i' j j' : Nat} (hi : i < f) (hi' : i' < f)
    (h : j * f + i = j' * f + i') : j = j' ∧ i = i' := by
  have hf : 0 < f := by omega
  have hmod := congrArg (· % f) h
  have hdiv := congrArg (· / f) h
  simp only [Nat.mul_comm _ f, Nat.mul_add_mod, Nat.mod_eq_of_lt hi, Nat.mod_eq_of_lt hi'] at hmod
  simp only [Nat.mul_comm _ f, Nat.mul_add_div hf, Nat.div_eq_of_lt hi, Nat.div_eq_of_lt hi',
    Nat.add_zero] at hdiv
  exact ⟨hdiv, hmod⟩

theorem copy_lt {i j : Nat} (hi : i < g.fsize) (hj : j < g.nFats) :
    j * g.fsize + i < g.nFats * g.fsize := by
  have hnext : (j + 1) * g.fsize ≤ g.nFats * g.fsize := Nat.mul_le_mul_right _ hj
  rw [Nat.add_mul, Nat.one_mul] at hnext
  omega

theorem Mirrored.put (h : Mirrored g dev) {sector : Nat}
    (hout : sector < g.fatbase ∨ g.fatbase + g.nFats * g.fsize ≤ sector) (data : Sector)
    (res : DResult) : Mirrored g (dev.put sector data res) := by
  intro i hi j hj
  have hcopy := copy_lt hi hj
  have hfst := copy_lt hi (j := 0) (by omega)
  rw [Device.put_failed_of_ne (by omega), Device.put_failed_of_ne (by omega),
    Device.put_sectors_of_ne (by omega), Device.put_sectors_of_ne (by omega)]
  exact h i hi j hj

theorem Mirrored.put_failed (h : Mirrored g dev) {sector : Nat} (hprimary : g.Primary sector)
    (data : Sector) {res : DResult} (hres : res ≠ .ok) : Mirrored g (dev.put sector data res) := by
  intro i hi j hj hfst
  have hne : g.fatbase + i ≠ sector := by
    rintro rfl
    simp [Device.put_failed_self, hres] at hfst
  have hcopy := copy_lt hi hj
  have hne' : g.fatbase + j * g.fsize + i ≠ sector := by
    rintro rfl
    rcases Nat.eq_zero_or_pos j with rfl | hpos
    · exact hne (by omega)
    · have hone : 1 * g.fsize ≤ j * g.fsize := Nat.mul_le_mul_right _ hpos
      exact hprimary.2.1 ⟨by omega, by omega⟩
  rw [Device.put_failed_of_ne hne] at hfst
  rw [Device.put_failed_of_ne hne', Device.put_sectors_of_ne hne', Device.put_sectors_of_ne hne]
  exact h i hi j hj hfst

theorem Mirrored.reflected (h : Mirrored g dev) {dev' : Device} {win : Sector} {i : Nat}
    (hi : i < g.fsize) (hfst : dev'.sectors (g.fatbase + i) = win)
    (hsame : ∀ n, (∀ k < g.nFats, n ≠ g.fatbase + k * g.fsize + i) →
      dev'.sectors n = dev.sectors n ∧ dev'.failed n = dev.failed n)
    (hcopies : ∀ k, 0 < k → k < g.nFats → dev'.failed (g.fatbase + k * g.fsize + i) = false →
      dev'.sectors (g.fatbase + k * g.fsize + i) = win) : Mirrored g dev' := by
  intro i' hi' j hj hok hok'
  by_cases hwritten : i' = i
  · subst hwritten
    rcases Nat.eq_zero_or_pos j with rfl | hpos
    · simp
    · rw [hcopies j hpos hj hok', hfst]
  · have happart : ∀ j', ∀ k < g.nFats,
        g.fatbase + j' * g.fsize + i' ≠ g.fatbase + k * g.fsize + i := by
      intro j' k _ heq
      have hsum : j' * g.fsize + i' = k * g.fsize + i := by omega
      exact hwritten (copy_inj hi' hi hsum).2
    obtain ⟨hsectors, hfailed⟩ := hsame _ (happart j)
    obtain ⟨hsectors', hfailed'⟩ := hsame (g.fatbase + i') (by simpa using happart 0)
    rw [hsectors, hsectors']
    exact h i' hi' j hj (hfailed' ▸ hok) (hfailed ▸ hok')

end Mirrors

section Window
variable {g : Geometry} {v : Sectors} {fs : Fatfs} {dev : Device}

theorem Presents.durable (h : Presents g v fs dev) (hclean : fs.wflag = false) {n : Nat}
    (hn : g.Primary n) : dev.sectors n = v n :=
  h.device n hn (by simp [hclean])

theorem Presents.modify (h : Presents g v fs dev) (hwin : g.Primary fs.winsect) (win : Sector) :
    Presents g (Function.update v fs.winsect win) { fs with win := win, wflag := true } dev where
  geometry := h.geometry
  win := fun _ => by simp
  device := by
    intro n hn hdirty
    have hne : n ≠ fs.winsect := hdirty rfl
    rw [Function.update_of_ne hne]
    exact h.device n hn fun _ => hne
  dirty := fun _ => hwin
  mirrored := h.mirrored

theorem ensures_diskRead1 {sector : Nat} (hsector : sector < 2 ^ 23)
    {post : DResult × Sector → Fatfs → Device → Prop}
    (hpost : ∀ res data, (res = .ok → data = dev.sectors sector) → post (res, data) fs dev) :
    Ensures deviceStep (diskRead1 sector) fs dev post := by
  simp only [diskRead1, ensures_bind, ensures_request, ensures_pure]
  refine ⟨⟨_, _, dev.serve_step _⟩, ?_⟩
  rintro ⟨res, data⟩ u hstep
  obtain ⟨rfl, hdata⟩ := deviceStep_answers hstep
  rw [blockFor_of_lt hsector] at hdata
  exact hpost res (data.get 0) fun hres => hdata hres Nat.one_pos

theorem ensures_diskWrite1 (win : Sector) {sector : Nat} (hsector : sector < 2 ^ 23)
    {post : DResult → Fatfs → Device → Prop}
    (hpost : ∀ res data, (res = .ok → data = win) → post res fs (dev.put sector data res)) :
    Ensures deviceStep (diskWrite1 win sector) fs dev post := by
  simp only [diskWrite1, ensures_request]
  refine ⟨⟨_, _, dev.serve_step _⟩, ?_⟩
  intro res u hstep
  obtain ⟨data, rfl, hdata⟩ := deviceStep_answers hstep
  rw [blockFor_of_lt hsector]
  exact hpost res data fun hres => hdata hres Nat.one_pos

theorem ensures_reflectFats (hg : g.Sound) (win : Sector) {nf wsect i j : Nat}
    (hwsect : wsect = g.fatbase + j * g.fsize + i) (hnf : j + nf = g.nFats) (hi : i < g.fsize) :
    Ensures deviceStep (reflectFats win g.fsize nf wsect) fs dev (fun _ fs' dev' => fs' = fs ∧
        (∀ n, (∀ k, j < k → k < g.nFats → n ≠ g.fatbase + k * g.fsize + i) →
          dev'.sectors n = dev.sectors n ∧ dev'.failed n = dev.failed n) ∧
        ∀ k, j < k → k < g.nFats → dev'.failed (g.fatbase + k * g.fsize + i) = false →
          dev'.sectors (g.fatbase + k * g.fsize + i) = win) := by
  induction nf using Nat.strong_induction_on generalizing wsect j dev with
  | _ nf ih =>
    match nf with
    | 0 | 1 =>
      refine (ensures_pure _).mpr ⟨rfl, fun n _ => ⟨rfl, rfl⟩, ?_⟩
      intro k hk hk'
      omega
    | nf + 2 =>
      have hle := hg.fats_le
      have hcopy := copy_lt hi (g := g) (j := j + 1) (by omega)
      have hnext : u32 (wsect + g.fsize) = g.fatbase + (j + 1) * g.fsize + i := by
        rw [hwsect, show g.fatbase + j * g.fsize + i + g.fsize =
          g.fatbase + (j + 1) * g.fsize + i by rw [Nat.add_mul, Nat.one_mul]; omega]
        exact Nat.mod_eq_of_lt (by omega)
      have hsector : g.fatbase + (j + 1) * g.fsize + i < 2 ^ 23 := by omega
      simp only [reflectFats, hnext, ensures_bind]
      apply ensures_diskWrite1 win hsector
      intro res data hdata
      apply (ih (nf + 1) (by omega) rfl (by omega)).mono
      rintro - fs' dev' ⟨hfs, hsame, hcopies⟩
      refine ⟨hfs, fun n hn => ?_, fun k hk hk' hfailed => ?_⟩
      · have hne := hn (j + 1) (by omega) (by omega)
        obtain ⟨hsectors, hfailed⟩ := hsame n fun k hk hk' => hn k (by omega) hk'
        exact ⟨hsectors.trans (Device.put_sectors_of_ne hne),
          hfailed.trans (Device.put_failed_of_ne hne)⟩
      · rcases Nat.eq_or_lt_of_le (Nat.succ_le_of_lt hk) with rfl | hlater
        · -- this copy is written now, and by none of the later writes
          obtain ⟨hsectors, hfailed'⟩ := hsame (g.fatbase + (j + 1) * g.fsize + i) (by
            intro k' hk' _ heq
            have hsum : (j + 1) * g.fsize + i = k' * g.fsize + i := by omega
            have hsame := copy_inj hi hi hsum
            omega)
          rw [hfailed', Device.put_failed_self] at hfailed
          rw [hsectors, hdata (by simpa using hfailed)]
          exact Function.update_self ..
        · exact hcopies k hlater hk' hfailed

theorem ensures_syncWindow (hg : g.Sound) (h : Presents g v fs dev) :
    Ensures deviceStep syncWindow fs dev (Synced g v fs) := by
  obtain rfl := h.geometry
  simp only [syncWindow, ensures_bind, ensures_get, ensures_ite, ensures_modify, ensures_pure]
  refine ⟨fun hdirty => ensures_diskWrite1 fs.win (h.dirty hdirty).1 fun res data hdata =>
    ⟨fun hres => ?_, fun hres => ?_⟩, fun hclean => ?_⟩
  · refine ⟨⟨rfl, h.win, fun n hn hne => ?_, h.dirty, ?_⟩, .inr ⟨rfl, rfl⟩⟩
    · rw [Device.put_sectors_of_ne (hne hdirty)]
      exact h.device n hn hne
    · exact h.mirrored.put_failed (h.dirty hdirty) data hres
  · -- the sector is on the device, and stays there while the copies are made
    have hprimary := h.dirty hdirty
    have hok : res = .ok := by simpa using hres
    obtain rfl := hdata hok
    have hflushed : ∀ n, fs.Primary n → (dev.put fs.winsect fs.win res).sectors n = v n := by
      intro n hn
      by_cases hne : n = fs.winsect
      · subst hne
        exact (Function.update_self ..).trans (h.win hn)
      · rw [Device.put_sectors_of_ne hne]
        exact h.device n hn fun _ => hne
    have hsynced : ∀ dev', (∀ n, fs.Primary n →
          dev'.sectors n = (dev.put fs.winsect fs.win res).sectors n) →
        Mirrored fs.toGeometry dev' →
        Synced fs.toGeometry v fs .ok { fs with wflag := false } dev' := by
      intro dev' hdev' hmirrored
      exact ⟨⟨rfl, h.win, fun n hn _ => (hdev' n hn).trans (hflushed n hn), by simp, hmirrored⟩,
        .inl ⟨rfl, rfl⟩⟩
    have hle := hg.fats_le
    have hone : fs.fsize ≤ fs.nFats * fs.fsize := Nat.le_mul_of_pos_left _ hg.copies
    have hsect := hprimary.1
    simp only [u32]
    refine ⟨fun hfat => ?_, fun hfat => hsynced _ (fun _ _ => rfl) (h.mirrored.put ?_ _ _)⟩
    · obtain ⟨i, hi, hwinsect⟩ : ∃ i < fs.fsize, fs.winsect = fs.fatbase + 0 * fs.fsize + i :=
        ⟨fs.winsect - fs.fatbase, by omega, by omega⟩
      apply (ensures_reflectFats hg fs.win hwinsect (Nat.zero_add _) hi).mono
      rintro - fs' dev' ⟨rfl, hsame, hcopies⟩
      have hkept : ∀ n, fs.Primary n →
          dev'.sectors n = (dev.put fs.winsect fs.win res).sectors n := by
        intro n hn
        refine (hsame n fun k hk hk' heq => hn.2.1 ?_).1
        have hcopy := copy_lt (g := fs.toGeometry) hi hk'
        have hone : 1 * fs.fsize ≤ k * fs.fsize := Nat.mul_le_mul_right _ hk
        omega
      refine hsynced dev' hkept (h.mirrored.reflected hi ?_ (fun n hn => ?_) hcopies)
      · rw [show fs.fatbase + i = fs.winsect by omega, hkept _ hprimary]
        exact Function.update_self ..
      · have hne : n ≠ fs.winsect := by
          rw [hwinsect]
          exact hn 0 hg.copies
        obtain ⟨hsectors, hfailed⟩ := hsame n fun k _ hk' => hn k hk'
        exact ⟨hsectors.trans (Device.put_sectors_of_ne hne),
          hfailed.trans (Device.put_failed_of_ne hne)⟩
    · have hcopy := hprimary.2.1
      omega
  · have hflag : fs.wflag = false := by simpa using hclean
    refine ⟨h, .inl ⟨rfl, ?_⟩⟩
    rw [← hflag]

theorem ensures_moveWindow (hg : g.Sound) (h : Presents g v fs dev) {sector : Nat}
    (hsector : g.Primary sector) :
    Ensures deviceStep (moveWindow sector) fs dev (Moved g v fs sector) := by
  simp only [moveWindow, ensures_bind, ensures_get, ensures_ite, ensures_pure]
  refine ⟨fun hmove => ?_, fun hthere => ?_⟩
  · apply (ensures_syncWindow hg h).mono
    rintro res fs' dev' ⟨hshows, ⟨rfl, rfl⟩ | ⟨rfl, rfl⟩⟩
    · have hdev : ∀ n, g.Primary n → dev'.sectors n = v n := fun n hn => hshows.durable rfl hn
      refine ⟨fun _ => ensures_diskRead1 hsector.1 fun rd data hdata => ?_,
        fun hno => absurd rfl hno⟩
      simp only [ensures_modify]
      refine ⟨fun _ => ?_, fun hrd => ?_⟩
      · exact ⟨⟨h.geometry, fun hno : noSector < 2 ^ 23 ∧ _ => absurd hno.1 (by decide),
          fun n hn _ => hdev n hn, by simp, hshows.mirrored⟩,
          rfl, .inr ⟨rfl, .inr rfl⟩, fun _ => rfl⟩
      · have hread : data = v sector :=
          (hdata (by simpa using hrd)).trans (hdev sector hsector)
        exact ⟨⟨h.geometry, fun _ => hread, fun n hn _ => hdev n hn, by simp,
          hshows.mirrored⟩, rfl, .inl ⟨rfl, rfl, hread⟩, fun _ => rfl⟩
    · exact ⟨fun hno => (by cases hno), fun _ => ⟨hshows, rfl, .inr ⟨rfl, .inl rfl⟩, id⟩⟩
  · have hsame : sector = fs.winsect := by simpa using hthere
    subst hsame
    exact ⟨h, rfl, .inl ⟨rfl, rfl, h.win hsector⟩, id⟩

theorem ensures_ctrlSync {post : FResult → Fatfs → Device → Prop} :
    Ensures deviceStep ctrlSync fs dev post ↔ post .ok fs dev := by
  simp only [ctrlSync, ensures_bind, ensures_request, ensures_ite, ensures_pure]
  constructor
  · rintro ⟨-, h⟩
    exact (h .ok dev (dev.serve_step .ctrlSync)).2 (by simp)
  · intro h
    refine ⟨⟨.ok, dev, dev.serve_step .ctrlSync⟩, ?_⟩
    intro res u hstep
    obtain ⟨rfl, rfl⟩ := deviceStep_answers hstep
    exact ⟨fun hno => absurd rfl hno, fun _ => h⟩

/-- After a successful `sync_fs` the device holds all that is shown. -/
theorem ensures_syncFs (hg : g.Sound) (h : Presents g v fs dev) :
    Ensures deviceStep syncFs fs dev (Flushed g v fs) := by
  obtain rfl := h.geometry
  simp only [syncFs, ensures_bind]
  apply (ensures_syncWindow hg h).mono
  rintro res fs' dev' ⟨hshows, ⟨rfl, rfl⟩ | ⟨rfl, rfl⟩⟩
  · simp only [ensures_bind, ensures_get, ensures_ite, ensures_modify, ensures_ctrlSync,
      ensures_pure]
    refine ⟨fun _ => ⟨fun hfsi => ?_, fun _ => ?_⟩, fun hno => absurd trivial hno⟩
    · have hle := hg.fats_le
      have hbefore := hg.info hfsi.1
      rw [u32, Nat.mod_eq_of_lt (by omega)]
      apply ensures_diskWrite1 _ (by omega)
      intro res data _
      have hwritten : Presents fs.toGeometry v { fs with
          win := fsinfoSector fs.toFsInfo, winsect := fs.volbase + 1, wflag := false, fsiFlag := 0 }
          (dev'.put (fs.volbase + 1) data res) := by
        refine ⟨rfl, fun hn => absurd rfl (hn.2.2 hfsi.1), fun n hn _ => ?_, by simp,
          hshows.mirrored.put (.inl hbefore) data res⟩
        rw [Device.put_sectors_of_ne (hn.2.2 hfsi.1)]
        exact hshows.durable rfl hn
      exact ⟨hwritten, rfl, rfl, .inr hbefore, .inl ⟨rfl, rfl⟩⟩
    · exact ⟨hshows, rfl, rfl, .inl rfl, .inl ⟨rfl, rfl⟩⟩
  · exact (ensures_pure _).mpr ⟨hshows, rfl, rfl, .inl rfl, .inr rfl⟩

end Window

section Around
variable {g : Geometry} {P : Nat → Prop}

/-- Where the window is. -/
structure Around (g : Geometry) (P : Nat → Prop) (fs : Fatfs) : Prop where
  geometry : fs.toGeometry = g
  winsect : P fs.winsect

theorem maintains_read (sector count : Nat) : Maintains (Around g P) failedTransfer
    (request (DiskCall.read sector count) : FatFs _) (·.1 = .ok) := by
  refine maintains_request _ fun r hr => ?_
  simpa [failedTransfer] using hr

theorem maintains_write (sector count : Nat) (data : Vector Sector count) :
    Maintains (Around g P) failedTransfer
      (request (DiskCall.write sector count data) : FatFs _) (· = .ok) := by
  refine maintains_request _ fun res hres => ?_
  simpa [failedTransfer] using hres

theorem maintains_diskRead1 (sector : Nat) :
    Maintains (Around g P) failedTransfer (diskRead1 sector) (·.1 = .ok) :=
  (maintains_read sector 1).bind fun _ => maintains_pure id

theorem maintains_diskWrite1 (win : Sector) (sector : Nat) :
    Maintains (Around g P) failedTransfer (diskWrite1 win sector) (· = .ok) :=
  maintains_write sector 1 #v[win]

theorem maintains_reflectFats (win : Sector) (fsize nf wsect : Nat) :
    Maintains (Around g P) failedTransfer (reflectFats win fsize nf wsect) (fun _ => True) := by
  induction nf using Nat.strong_induction_on generalizing wsect with
  | _ nf ih =>
    match nf with
    | 0 | 1 => exact maintains_pure trivial
    | nf + 2 =>
      exact (maintains_diskWrite1 _ _).bind fun _ => (ih _ (by omega) _).mono fun _ _ _ => trivial

theorem maintains_syncWindow :
    Maintains (Around g P) failedTransfer syncWindow (· = .ok) := by
  refine maintains_get fun fs hfs => maintains_ite (fun _ => ?_) fun _ => maintains_pure rfl
  refine (maintains_diskWrite1 _ _).bind fun res => maintains_ite
    (fun hres => maintains_pure fun hok => absurd hok hres) fun _ => ?_
  refine (maintains_modify fun fs hfs => ⟨hfs.geometry, hfs.winsect⟩).bind fun _ => ?_
  refine maintains_ite (fun _ => ?_) fun _ => maintains_pure fun _ _ => rfl
  exact (maintains_reflectFats _ _ _ _).bind fun _ => maintains_pure fun _ _ _ => rfl

theorem maintains_moveWindow (hnone : P noSector) {sector : Nat} (hsector : P sector) :
    Maintains (Around g P) failedTransfer (moveWindow sector) (· = .ok) := by
  refine maintains_get fun fs hfs => maintains_ite (fun _ => ?_) fun _ => maintains_pure rfl
  refine maintains_syncWindow.bind fun res => maintains_ite (fun _ => ?_)
    fun hres => maintains_pure fun hok => absurd hok hres
  refine (maintains_diskRead1 _).bind fun r => maintains_ite (fun hrd => ?_) fun _ => ?_
  · exact (maintains_modify fun fs hfs => ⟨hfs.geometry, hnone⟩).bind
      fun _ => maintains_pure fun _ hok => absurd hok hrd
  · exact (maintains_modify fun fs hfs => ⟨hfs.geometry, hsector⟩).bind
      fun _ => maintains_pure fun _ _ _ => rfl

theorem maintains_ctrlSync : Maintains (Around g P) failedTransfer ctrlSync (· = .ok) := by
  have hcall : Maintains (Around g P) failedTransfer (request DiskCall.ctrlSync : FatFs _)
      (· = .ok) := by
    refine maintains_request _ fun res hres => ?_
    simpa [failedTransfer] using hres
  exact hcall.bind fun res => maintains_ite (fun hres => maintains_pure fun hok => absurd hok hres)
    fun _ => maintains_pure fun _ => rfl

theorem maintains_syncFs (hg : g.Sound) (hlow : ∀ n < g.fatbase, P n) :
    Maintains (Around g P) failedTransfer syncFs (· = .ok) := by
  refine maintains_syncWindow.bind fun res => maintains_ite (fun _ => ?_)
    fun hres => maintains_pure fun hok => absurd hok hres
  refine maintains_get fun fs hfs => maintains_ite (fun hfsi => ?_)
    fun _ => maintains_ctrlSync.mono fun _ hres _ => hres
  have hbefore := hg.info (hfs.geometry ▸ hfsi.1)
  have hle := hg.fats_le
  have hbase : fs.volbase = g.volbase := congrArg Geometry.volbase hfs.geometry
  have hinfo : u32 (fs.volbase + 1) = g.volbase + 1 := by
    rw [hbase]
    exact Nat.mod_eq_of_lt (by omega)
  rw [hinfo]
  refine (maintains_modify fun fs hfs => ⟨hfs.geometry, hlow _ hbefore⟩).bind fun _ => ?_
  refine (maintains_diskWrite1 _ _).bind fun _ => ?_
  refine (maintains_modify fun fs hfs => ⟨hfs.geometry, hfs.winsect⟩).bind fun _ => ?_
  exact maintains_ctrlSync.mono fun _ hres _ _ _ _ => hres

end Around

section Aborting
variable {g : Geometry} {P : Nat → Prop} {c c' : Prop} {ω α β : Type} {post : α → Prop}
  {post' : β → Prop}

/-- Where `c` holds the program aborts with `FR_DISK_ERR` only when a transfer has failed. -/
abbrev Aborts (g : Geometry) (P : Nat → Prop) (c : Prop) (p : ExceptT (FResult × ω) FatFs α)
    (post : α → Prop) : Prop :=
  MaintainsElse (Around g P) failedTransfer p (fun a => c → post a) fun e => c → e.1 ≠ .diskErr

theorem Aborts.bind {p : ExceptT (FResult × ω) FatFs α} {f : α → ExceptT (FResult × ω) FatFs β}
    (hp : Aborts g P c p post) (hf : ∀ a, Aborts g P (c ∧ post a) (f a) post') :
    Aborts g P c (p >>= f) post' :=
  hp.under hf

theorem aborts_lift {p : FatFs α} (hp : Maintains (Around g P) failedTransfer p post) :
    Aborts g P c (liftM p : ExceptT (FResult × ω) FatFs α) post :=
  (hp.mono fun _ ha (_ : c) => ha).lift

theorem aborts_pure {a : α} (h : c → post a) :
    Aborts g P c (pure a : ExceptT (FResult × ω) FatFs α) post :=
  maintainsElse_pure h

theorem Aborts.weaken {p : ExceptT (FResult × ω) FatFs α} (h : Aborts g P c p post)
    (hc : c' → c) : Aborts g P c' p post :=
  h.mono (fun _ ha hc' => ha (hc hc')) fun _ he hc' => he (hc hc')

end Aborting

end FtpServer

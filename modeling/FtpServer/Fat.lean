import FtpServer.Window

/-! The entries of the file allocation table, read and written through the window. An entry of
12 bits may lie in two sectors, and then takes two moves of the window. -/

namespace FtpServer
open Interaction CString Packed Transition

section Source

/-- The value that stands for a disk error. -/
def diskError : Nat := 0xFFFFFFFF

def storeWin (win : Sector) : FatFs Unit :=
  modify fun fs => { fs with win := win, wflag := true }

def getFat (clst : Nat) : FatFs Nat := do
  let fs ← get
  if clst < 2 ∨ fs.nFatent ≤ clst then pure 1
  else match fs.fsType with
    | .fat12 => do
      let bc := u32 (clst + clst / 2)
      let res ← moveWindow (u32 (fs.fatbase + bc / 512))
      if res ≠ .ok then pure diskError
      else do
        let fs ← get
        let wc := (fs.win.get (bc % 512)).toNat
        let bc := bc + 1
        let res ← moveWindow (u32 (fs.fatbase + bc / 512))
        if res ≠ .ok then pure diskError
        else do
          let fs ← get
          let wc := (fs.win.get (bc % 512)).toNat <<< 8 ||| wc
          pure (if clst &&& 1 ≠ 0 then wc >>> 4 else wc &&& 0xFFF)
    | .fat16 => do
      let res ← moveWindow (u32 (fs.fatbase + clst / (512 / 2)))
      if res ≠ .ok then pure diskError
      else do
        let fs ← get
        pure (ldWord fs.win (clst * 2 % 512))
    | .fat32 => do
      let res ← moveWindow (u32 (fs.fatbase + clst / (512 / 4)))
      if res ≠ .ok then pure diskError
      else do
        let fs ← get
        pure (ldDword fs.win (clst * 4 % 512) &&& 0x0FFFFFFF)
    | .unmounted => pure 1

def putFat (clst val : Nat) : FatFs FResult := do
  let fs ← get
  if clst < 2 ∨ fs.nFatent ≤ clst then pure .intErr
  else match fs.fsType with
    | .fat12 => do
      let bc := u32 (clst + clst / 2)
      let res ← moveWindow (u32 (fs.fatbase + bc / 512))
      if res ≠ .ok then pure res
      else do
        let fs ← get
        let p := bc % 512
        let bc := bc + 1
        storeWin (fs.win.store p [if clst &&& 1 ≠ 0
          then fs.win.get p &&& (0x0F : UInt8) ||| UInt8.ofNat val <<< (4 : UInt8)
          else UInt8.ofNat val])
        let res ← moveWindow (u32 (fs.fatbase + bc / 512))
        if res ≠ .ok then pure res
        else do
          let fs ← get
          let p := bc % 512
          storeWin (fs.win.store p [if clst &&& 1 ≠ 0
            then UInt8.ofNat (val >>> 4)
            else fs.win.get p &&& (0xF0 : UInt8) ||| UInt8.ofNat (val >>> 8) &&& (0x0F : UInt8)])
          pure res
    | .fat16 => do
      let res ← moveWindow (u32 (fs.fatbase + clst / (512 / 2)))
      if res ≠ .ok then pure res
      else do
        let fs ← get
        storeWin (stWord fs.win (clst * 2 % 512) val)
        pure res
    | .fat32 => do
      let res ← moveWindow (u32 (fs.fatbase + clst / (512 / 4)))
      if res ≠ .ok then pure res
      else do
        let fs ← get
        let p := clst * 4 % 512
        storeWin (stDword fs.win p (val ||| ldDword fs.win p &&& 0xF0000000))
        pure res
    | .unmounted => pure .intErr

end Source

section Table

def Geometry.InFat (g : Geometry) (n : Nat) : Prop := g.fatbase ≤ n ∧ n < g.fatbase + g.fsize

def fatMemory (g : Geometry) (v : Sectors) : Cells :=
  fun k => (v (g.fatbase + k / 512)).get (k % 512)

def tableEntry (t : FsType) (m : Cells) (clst : Nat) : Nat :=
  match t with
  | .unmounted => 1
  | .fat12 => twelve m clst
  | .fat16 => word m (clst * 2)
  | .fat32 => dword m (clst * 4) % 2 ^ 28

abbrev Geometry.table (g : Geometry) (v : Sectors) : Nat → Nat :=
  tableEntry g.fsType (fatMemory g v)

def tablePut (t : FsType) (m : Cells) (clst val : Nat) : Cells :=
  match t with
  | .unmounted => m
  | .fat12 => putTwelve m clst val
  | .fat16 => putWord m (clst * 2) val
  | .fat32 => putDword m (clst * 4) (val ||| dword m (clst * 4) &&& 0xF0000000)

variable {g : Geometry} {v : Sectors} {m : Cells} {clst k val : Nat}

theorem tableEntry_le (t : FsType) (ht : t ≠ .unmounted) : tableEntry t m clst ≤ endMark t := by
  cases t with
  | unmounted => exact absurd rfl ht
  | fat12 => exact Nat.le_of_lt_succ (twelve_lt m clst)
  | fat16 => exact Nat.le_of_lt_succ (word_lt m (clst * 2))
  | fat32 => exact Nat.le_of_lt_succ (Nat.mod_lt _ (by decide))

theorem tableEntry_put {t : FsType} (ht : t ≠ .unmounted) :
    tableEntry t (tablePut t m clst val) clst = val % (endMark t + 1) := by
  cases t with
  | unmounted => exact absurd rfl ht
  | fat12 => exact twelve_putTwelve m clst val
  | fat16 => exact word_putWord m (clst * 2) val
  | fat32 =>
    have htop : (dword m (clst * 4) &&& 0xF0000000) % 2 ^ 28 = 0 := by
      rw [Nat.and_mod_two_pow]
      exact Nat.and_zero _
    simp only [tableEntry, tablePut, dword_putDword]
    rw [Nat.mod_mod_of_dvd _ (Nat.pow_dvd_pow 2 (by decide)), Nat.or_mod_two_pow, htop, Nat.or_zero]
    rfl

theorem tableEntry_put_of_ne (t : FsType) (h : k ≠ clst) :
    tableEntry t (tablePut t m clst val) k = tableEntry t m k := by
  cases t with
  | unmounted => rfl
  | fat12 => exact twelve_putTwelve_of_ne m h val
  | fat16 => exact word_putWord_of_apart m (by omega) val
  | fat32 => exact congrArg (· % 2 ^ 28) (dword_putDword_of_apart m (by omega) _)

theorem word_fatMemory {p : Nat} (h : p % 512 + 2 ≤ 512) :
    word (v (g.fatbase + p / 512)).get (p % 512) = word (fatMemory g v) p := by
  have hsect : (p + 1) / 512 = p / 512 := by omega
  have hbyte : (p + 1) % 512 = p % 512 + 1 := by omega
  simp only [word, fatMemory, hsect, hbyte]

theorem dword_fatMemory {p : Nat} (h : p % 512 + 4 ≤ 512) :
    dword (v (g.fatbase + p / 512)).get (p % 512) = dword (fatMemory g v) p := by
  have hsect : (p + 2) / 512 = p / 512 := by omega
  have hbyte : (p + 2) % 512 = p % 512 + 2 := by omega
  have hnext := word_fatMemory (g := g) (v := v) (p := p + 2) (by omega)
  rw [hsect, hbyte] at hnext
  rw [dword, dword, hnext, word_fatMemory (by omega)]

theorem fatMemory_store (b : UInt8) : fatMemory g (Function.update v (g.fatbase + k / 512)
      ((v (g.fatbase + k / 512)).store (k % 512) [b])) =
    Function.update (fatMemory g v) k b := by
  funext j
  have hk : k % 512 < 512 := Nat.mod_lt _ (by decide)
  simp only [fatMemory, Function.update_apply]
  by_cases hsect : j / 512 = k / 512
  · rw [if_pos (by omega), Sector.get_store_one hk, hsect]
    by_cases hj : j = k
    · rw [if_pos (by omega), if_pos hj]
    · rw [if_neg (by omega), if_neg hj]
  · have hj : j ≠ k := by
      rintro rfl
      exact hsect rfl
    rw [if_neg (by omega), if_neg hj]

theorem fatMemory_update {sect : Nat} {win : Sector} {m : Cells}
    (hin : ∀ i < 512, win.get i = m (sect * 512 + i))
    (hout : ∀ j, j / 512 ≠ sect → m j = fatMemory g v j) :
    fatMemory g (Function.update v (g.fatbase + sect) win) = m := by
  funext j
  simp only [fatMemory, Function.update_apply]
  by_cases hsect : j / 512 = sect
  · subst hsect
    rw [if_pos rfl, hin _ (Nat.mod_lt _ (by decide)), Nat.div_add_mod']
  · rw [if_neg (by omega), hout j hsect]
    rfl

end Table

section Access
variable {g : Geometry} {v : Sectors} {fs : Fatfs} {dev : Device} {clst k : Nat}

theorem Geometry.Sound.primary_inFat (hg : g.Sound) {n : Nat} (h : g.InFat n) : g.Primary n := by
  have hone : g.fsize ≤ g.nFats * g.fsize := Nat.le_mul_of_pos_left _ hg.copies
  have hfats := hg.fats
  have hlt := hg.clusters
  have hhigh := h.2
  refine ⟨by omega, fun hcopy => ?_, fun hfat32 => ?_⟩
  · exact absurd (hhigh.trans_le hcopy.1) (lt_irrefl n)
  · have hlow := h.1
    have hinfo := hg.info hfat32
    omega

def Geometry.Near (g : Geometry) (fs fs' : Fatfs) : Prop :=
  fs'.winsect = fs.winsect ∨ g.InFat fs'.winsect ∨ fs'.winsect = noSector

theorem Geometry.Near.trans {fs' fs'' : Fatfs} (h : g.Near fs fs') (h' : g.Near fs' fs'') :
    g.Near fs fs'' := by
  rcases h' with hsame | hrest
  · rcases h with hsame' | hrest
    · exact .inl (hsame.trans hsame')
    · exact .inr (hsame ▸ hrest)
  · exact .inr hrest

structure MovedTo (g : Geometry) (v : Sectors) (fs : Fatfs) (k : Nat) (res : FResult) (fs' : Fatfs)
    (dev' : Device) : Prop where
  shows : Presents g v fs' dev'
  info : fs'.toFsInfo = fs.toFsInfo
  near : g.Near fs fs'
  outcome : res = .ok ∧ fs'.winsect = g.fatbase + k / 512 ∧ fs'.win = v (g.fatbase + k / 512) ∧
    g.InFat fs'.winsect ∨ res = .diskErr
  clean : fs.wflag = false → fs'.wflag = false

theorem ensures_moveTo (hg : g.Sound) (h : Presents g v fs dev) (hk : k < tableBytes g) :
    Ensures deviceStep (moveWindow (u32 (g.fatbase + k / 512))) fs dev (MovedTo g v fs k) := by
  have htable := hg.table
  have hin : g.InFat (g.fatbase + k / 512) := ⟨by omega, by omega⟩
  have hprimary := hg.primary_inFat hin
  have hlt : g.fatbase + k / 512 < 2 ^ 32 := hprimary.1.trans (by decide)
  rw [u32, Nat.mod_eq_of_lt hlt]
  apply (ensures_moveWindow hg h hprimary).mono
  rintro res fs' dev' ⟨hshows, hinfo, ⟨rfl, hsect, hwin⟩ | ⟨rfl, hplace⟩, hclean⟩
  · have hin' : g.InFat fs'.winsect := hsect ▸ hin
    exact ⟨hshows, hinfo, .inr (.inl hin'), .inl ⟨rfl, hsect, hwin, hin'⟩, hclean⟩
  · exact ⟨hshows, hinfo, hplace.imp_right .inr, .inr rfl, hclean⟩

def fatValue (g : Geometry) (m : Cells) (clst : Nat) : Nat :=
  if clst < 2 ∨ g.nFatent ≤ clst then 1 else tableEntry g.fsType m clst

structure FatRead (g : Geometry) (v : Sectors) (fs : Fatfs) (clst val : Nat) (fs' : Fatfs)
    (dev' : Device) : Prop where
  shows : Presents g v fs' dev'
  info : fs'.toFsInfo = fs.toFsInfo
  near : g.Near fs fs'
  outcome : val = fatValue g (fatMemory g v) clst ∨ val = diskError
  clean : fs.wflag = false → fs'.wflag = false

theorem ensures_getFat (hg : g.Sound) (h : Presents g v fs dev) (clst : Nat) :
    Ensures deviceStep (getFat clst) fs dev (FatRead g v fs clst) := by
  obtain rfl := h.geometry
  simp only [getFat, ensures_bind, ensures_get, ensures_ite, ensures_pure]
  refine ⟨fun hout => ⟨h, rfl, .inl rfl, .inl (if_pos hout).symm, id⟩, fun hin => ?_⟩
  have hvalue : fatValue fs.toGeometry (fatMemory fs.toGeometry v) clst =
      tableEntry fs.fsType (fatMemory fs.toGeometry v) clst := if_neg hin
  have hmarks := hg.marks
  cases htype : fs.fsType with
  | unmounted => exact absurd htype hg.mounted
  | fat12 =>
    have hsize : tableBytes fs.toGeometry = fs.nFatent + fs.nFatent / 2 + fs.nFatent % 2 := by
      simp only [tableBytes, htype]
    have hclst : clst < 4096 := by
      rw [htype] at hmarks
      simp only [endMark] at hmarks
      omega
    have hbc : u32 (clst + clst / 2) = clst + clst / 2 := Nat.mod_eq_of_lt (by omega)
    simp only [hbc, ensures_bind, ensures_get, ensures_ite, ensures_pure]
    apply (ensures_moveTo hg h (by omega)).mono
    rintro res fs₁ dev₁ ⟨hshows, hinfo, hnear, ⟨rfl, hsect, hwin, -⟩ | rfl, hclean⟩
    · refine ⟨fun hno => absurd rfl hno, fun _ => ?_⟩
      rw [show fs₁.toGeometry = fs.toGeometry from hshows.geometry]
      apply (ensures_moveTo hg hshows (k := clst + clst / 2 + 1) (by omega)).mono
      rintro res fs₂ dev₂ ⟨hshows', hinfo', hnear', ⟨rfl, hsect', hwin', -⟩ | rfl, hclean'⟩
      · refine ⟨fun hno => absurd rfl hno, fun _ => ⟨hshows', hinfo'.trans hinfo,
          hnear.trans hnear', .inl ?_, hclean' ∘ hclean⟩⟩
        rw [hvalue, hwin, hwin', htype]
        simp only [tableEntry, twelve, word, fatMemory,
          or_shiftLeft_byte (UInt8.toNat_lt _), Nat.and_one_is_mod, Nat.shiftRight_eq_div_pow]
        rw [show 0xFFF = 2 ^ 12 - 1 from rfl, Nat.and_two_pow_sub_one_eq_mod]
        by_cases hodd : clst % 2 = 1
        · simp [hodd]
        · simp [Nat.mod_two_ne_one.mp hodd]
      · exact ⟨fun _ => ⟨hshows', hinfo'.trans hinfo, hnear.trans hnear', .inr rfl,
          hclean' ∘ hclean⟩, fun hno => absurd FResult.noConfusion hno⟩
    · exact ⟨fun _ => ⟨hshows, hinfo, hnear, .inr rfl, hclean⟩,
        fun hno => absurd FResult.noConfusion hno⟩
  | fat16 =>
    have hsize : tableBytes fs.toGeometry = fs.nFatent * 2 := by simp only [tableBytes, htype]
    have hplace : clst / (512 / 2) = clst * 2 / 512 := by omega
    simp only [hplace, ensures_bind, ensures_get, ensures_ite, ensures_pure]
    apply (ensures_moveTo hg h (by omega)).mono
    rintro res fs₁ dev₁ ⟨hshows, hinfo, hnear, ⟨rfl, hsect, hwin, -⟩ | rfl, hclean⟩
    · refine ⟨fun hno => absurd rfl hno, fun _ => ⟨hshows, hinfo, hnear, .inl ?_, hclean⟩⟩
      rw [hvalue, hwin, htype, ldWord_eq]
      exact word_fatMemory (by omega)
    · exact ⟨fun _ => ⟨hshows, hinfo, hnear, .inr rfl, hclean⟩,
        fun hno => absurd FResult.noConfusion hno⟩
  | fat32 =>
    have hsize : tableBytes fs.toGeometry = fs.nFatent * 4 := by simp only [tableBytes, htype]
    have hplace : clst / (512 / 4) = clst * 4 / 512 := by omega
    simp only [hplace, ensures_bind, ensures_get, ensures_ite, ensures_pure]
    apply (ensures_moveTo hg h (by omega)).mono
    rintro res fs₁ dev₁ ⟨hshows, hinfo, hnear, ⟨rfl, hsect, hwin, -⟩ | rfl, hclean⟩
    · refine ⟨fun hno => absurd rfl hno, fun _ => ⟨hshows, hinfo, hnear, .inl ?_, hclean⟩⟩
      rw [hvalue, hwin, htype, ldDword_eq, show 0x0FFFFFFF = 2 ^ 28 - 1 from rfl,
        Nat.and_two_pow_sub_one_eq_mod]
      exact congrArg (· % 2 ^ 28) (dword_fatMemory (by omega))
    · exact ⟨fun _ => ⟨hshows, hinfo, hnear, .inr rfl, hclean⟩,
        fun hno => absurd FResult.noConfusion hno⟩

/-- What comes of a store into the FAT: only where an entry of 12 bits is torn between two
sectors can it change although the disk fails. -/
structure FatWritten (g : Geometry) (v v' : Sectors) (fs : Fatfs) (clst val : Nat) (res : FResult)
    (fs' : Fatfs) (dev' : Device) : Prop where
  shows : Presents g v' fs' dev'
  info : fs'.toFsInfo = fs.toFsInfo
  near : g.Near fs fs'
  outside : ∀ n, ¬g.InFat n → v' n = v n
  others : ∀ k, k ≠ clst → g.table v' k = g.table v k
  outcome :
    res = .ok ∧ (2 ≤ clst ∧ clst < g.nFatent) ∧ g.InFat fs'.winsect ∧
      fatMemory g v' = tablePut g.fsType (fatMemory g v) clst val ∨
    res = .diskErr ∧ (2 ≤ clst ∧ clst < g.nFatent) ∧ (g.fsType = .fat12 ∨ v' = v) ∨
    res = .intErr ∧ (clst < 2 ∨ g.nFatent ≤ clst) ∧ v' = v
  used : 2 ≤ val → val < g.table v clst → g.table v' clst ≠ 0

theorem lowTwelve_eq (b : UInt8) (clst val : Nat) : (if clst &&& 1 ≠ 0
      then b &&& (0x0F : UInt8) ||| UInt8.ofNat val <<< (4 : UInt8)
      else UInt8.ofNat val) = lowTwelve b clst val := by
  have hbyte := b.toNat_lt
  rw [lowTwelve, Nat.and_one_is_mod]
  by_cases hodd : clst % 2 = 1
  · rw [if_pos hodd, if_pos (by omega)]
    apply UInt8.toNat_inj.mp
    rw [toNat_low_or_high, UInt8.toNat_ofNat', UInt8.toNat_ofNat']
    omega
  · rw [if_neg hodd, if_neg (by omega)]

theorem highTwelve_eq (b : UInt8) (clst val : Nat) : (if clst &&& 1 ≠ 0
      then UInt8.ofNat (val >>> 4)
      else b &&& (0xF0 : UInt8) ||| UInt8.ofNat (val >>> 8) &&& (0x0F : UInt8)) =
    highTwelve b clst val := by
  have hbyte := b.toNat_lt
  rw [highTwelve, Nat.and_one_is_mod, Nat.shiftRight_eq_div_pow, Nat.shiftRight_eq_div_pow]
  by_cases hodd : clst % 2 = 1
  · rw [if_pos hodd, if_pos (by omega)]
  · rw [if_neg hodd, if_neg (by omega)]
    apply UInt8.toNat_inj.mp
    rw [toNat_high_or_low, UInt8.toNat_ofNat', UInt8.toNat_ofNat']
    omega

@[simp] theorem ensures_storeWin (win : Sector) {post : Unit → Fatfs → Device → Prop} :
    Ensures deviceStep (storeWin win) fs dev post ↔
      post () { fs with win := win, wflag := true } dev :=
  ensures_modify _

theorem Presents.store (h : Presents g v fs dev) (hg : g.Sound) {n : Nat} (hsect : fs.winsect = n)
    (hin : g.InFat fs.winsect) (win : Sector) :
    Presents g (Function.update v n win) { fs with win := win, wflag := true } dev := by
  subst hsect
  exact h.modify (hg.primary_inFat hin) win

theorem update_outside {n n' : Nat} (hin : g.InFat n') (hout : ¬g.InFat n) (win : Sector) :
    Function.update v n' win n = v n := by
  apply Function.update_of_ne
  rintro rfl
  exact hout hin

theorem Presents.written {val : Nat} {fs₁ : Fatfs} {w : Sectors} (h : Presents g w fs₁ dev)
    (hg : g.Sound)
    (hinfo : fs₁.toFsInfo = fs.toFsInfo) (hsect : fs₁.winsect = g.fatbase + k / 512)
    (hfat : g.InFat fs₁.winsect) (hclst : 2 ≤ clst ∧ clst < g.nFatent)
    (hout : ∀ n, ¬g.InFat n → w n = v n) (win : Sector)
    (htable : fatMemory g (Function.update w (g.fatbase + k / 512) win) =
      tablePut g.fsType (fatMemory g v) clst val) :
    ∃ v', FatWritten g v v' fs clst val .ok { fs₁ with win := win, wflag := true } dev := by
  refine ⟨_, h.store hg hsect hfat win, hinfo, .inr (.inl hfat), fun n hn => ?_, fun k hk => ?_,
    .inl ⟨rfl, hclst, hfat, htable⟩, fun hlow hless => ?_⟩
  · rw [update_outside (hsect ▸ hfat) hn, hout n hn]
  · rw [Geometry.table, htable, tableEntry_put_of_ne _ hk]
  · have hmax : g.table v clst ≤ endMark g.fsType := tableEntry_le g.fsType hg.mounted
    rw [Geometry.table, htable, tableEntry_put hg.mounted, Nat.mod_eq_of_lt (by omega)]
    omega

theorem ensures_putFat (hg : g.Sound) (h : Presents g v fs dev) (clst val : Nat) :
    Ensures deviceStep (putFat clst val) fs dev (fun res fs' dev' =>
      ∃ v', FatWritten g v v' fs clst val res fs' dev') := by
  obtain rfl := h.geometry
  simp only [putFat, ensures_bind, ensures_get, ensures_ite, ensures_pure]
  have hsame : 2 ≤ val → val < fs.table v clst → fs.table v clst ≠ 0 := fun _ _ => by omega
  refine ⟨fun hout => ⟨v, h, rfl, .inl rfl, fun _ _ => rfl, fun _ _ => rfl,
    .inr (.inr ⟨rfl, hout, rfl⟩), hsame⟩, fun hin => ?_⟩
  have hclst : 2 ≤ clst ∧ clst < fs.nFatent := by omega
  have hmarks := hg.marks
  cases htype : fs.fsType with
  | unmounted => exact absurd htype hg.mounted
  | fat12 =>
    have hsize : tableBytes fs.toGeometry = fs.nFatent + fs.nFatent / 2 + fs.nFatent % 2 := by
      simp only [tableBytes, htype]
    rw [htype] at hmarks
    simp only [endMark] at hmarks
    have hbc : u32 (clst + clst / 2) = clst + clst / 2 := Nat.mod_eq_of_lt (by omega)
    simp only [hbc, lowTwelve_eq, highTwelve_eq, ensures_bind, ensures_get, ensures_ite,
      ensures_pure, ensures_storeWin]
    apply (ensures_moveTo hg h (by omega)).mono
    rintro res fs₁ dev₁ ⟨hshows, hinfo, hnear, ⟨rfl, hsect, hwin, hfat⟩ | rfl⟩
    · refine ⟨fun hno => absurd rfl hno, fun _ => ?_⟩
      -- the first byte is stored; the second may lie in the next sector
      have hlow := hshows.store hg hsect hfat (fs₁.win.store ((clst + clst / 2) % 512)
        [lowTwelve (fs₁.win.get ((clst + clst / 2) % 512)) clst val])
      generalize hw : Function.update v _ _ = w at hlow
      have htable : fatMemory fs.toGeometry w =
          putLowTwelve (fatMemory fs.toGeometry v) clst val := by
        rw [← hw, hwin, fatMemory_store]
        rfl
      have houtside : ∀ n, ¬fs.InFat n → w n = v n := by
        intro n hn
        rw [← hw, update_outside (hsect ▸ hfat) hn]
      rw [show fs₁.fatbase = fs.fatbase from congrArg Geometry.fatbase hshows.geometry]
      apply (ensures_moveTo hg hlow (k := clst + clst / 2 + 1) (by omega)).mono
      rintro res fs₂ dev₂ ⟨hshows', hinfo', hnear', ⟨rfl, hsect', hwin', hfat'⟩ | rfl⟩
      · refine ⟨fun hno => absurd rfl hno, fun _ => ?_⟩
        apply hshows'.written hg (hinfo'.trans hinfo) hsect' hfat' hclst houtside
        have hkeep : fs₂.win.get ((clst + clst / 2 + 1) % 512) =
            fatMemory fs.toGeometry v (clst + clst / 2 + 1) := by
          rw [hwin']
          change fatMemory fs.toGeometry w (clst + clst / 2 + 1) = _
          rw [htable]
          exact Function.update_of_ne (by omega) _ _
        rw [hkeep, hwin', fatMemory_store, htable, htype]
        rfl
      · refine ⟨fun _ => ⟨w, hshows', hinfo'.trans hinfo, hnear.trans ?_, houtside, ?_,
          .inr (.inl ⟨rfl, hclst, .inl htype⟩), fun hpos hless => ?_⟩,
          fun hno => absurd FResult.noConfusion hno⟩
        · exact hnear'
        · intro k hk
          simp only [Geometry.table, htable, htype]
          exact twelve_putLowTwelve_of_ne _ hk val
        · simp only [Geometry.table, htype, tableEntry] at hless
          simp only [Geometry.table, htable, htype, tableEntry]
          exact twelve_putLowTwelve_ne_zero _ (by omega) hless
    · exact ⟨fun _ => ⟨v, hshows, hinfo, hnear, fun _ _ => rfl, fun _ _ => rfl,
        .inr (.inl ⟨rfl, hclst, .inr rfl⟩), hsame⟩, fun hno => absurd FResult.noConfusion hno⟩
  | fat16 =>
    have hsize : tableBytes fs.toGeometry = fs.nFatent * 2 := by simp only [tableBytes, htype]
    have hplace : clst / (512 / 2) = clst * 2 / 512 := by omega
    simp only [hplace, ensures_bind, ensures_get, ensures_ite, ensures_pure, ensures_storeWin]
    apply (ensures_moveTo hg h (by omega)).mono
    rintro res fs₁ dev₁ ⟨hshows, hinfo, hnear, ⟨rfl, hsect, hwin, hfat⟩ | rfl⟩
    · refine ⟨fun hno => absurd rfl hno, fun _ => ?_⟩
      apply hshows.written hg hinfo hsect hfat hclst fun _ _ => rfl
      rw [htype]
      refine fatMemory_update (fun i hi => ?_) fun j hj => ?_
      · rw [get_stWord (by omega), putWord_shift (fatMemory fs.toGeometry v)
          (o := clst * 2 / 512 * 512)]
        · exact congrArg (putWord _ · val _) (by omega)
        · rw [hwin, fatMemory]
          congr 2 <;> omega
      · exact putWord_of_ne _ (by omega) (by omega) val
    · exact ⟨fun _ => ⟨v, hshows, hinfo, hnear, fun _ _ => rfl, fun _ _ => rfl,
        .inr (.inl ⟨rfl, hclst, .inr rfl⟩), hsame⟩, fun hno => absurd FResult.noConfusion hno⟩
  | fat32 =>
    have hsize : tableBytes fs.toGeometry = fs.nFatent * 4 := by simp only [tableBytes, htype]
    have hplace : clst / (512 / 4) = clst * 4 / 512 := by omega
    simp only [hplace, ensures_bind, ensures_get, ensures_ite, ensures_pure, ensures_storeWin]
    apply (ensures_moveTo hg h (by omega)).mono
    rintro res fs₁ dev₁ ⟨hshows, hinfo, hnear, ⟨rfl, hsect, hwin, hfat⟩ | rfl⟩
    · refine ⟨fun hno => absurd rfl hno, fun _ => ?_⟩
      apply hshows.written hg hinfo hsect hfat hclst fun _ _ => rfl
      rw [htype, ldDword_eq, hwin, dword_fatMemory (by omega)]
      refine fatMemory_update (fun i hi => ?_) fun j hj => ?_
      · rw [get_stDword (by omega), putDword_shift (fatMemory fs.toGeometry v)
          (o := clst * 4 / 512 * 512)]
        · exact congrArg (putDword _ · _ _) (by omega)
        · rw [fatMemory]
          congr 2 <;> omega
      · exact putDword_of_apart _ (by omega) _
    · exact ⟨fun _ => ⟨v, hshows, hinfo, hnear, fun _ _ => rfl, fun _ _ => rfl,
        .inr (.inl ⟨rfl, hclst, .inr rfl⟩), hsame⟩, fun hno => absurd FResult.noConfusion hno⟩

theorem FatWritten.table {v' : Sectors} {val : Nat} {fs' : Fatfs} {dev' : Device}
    (h : FatWritten g v v' fs clst val .ok fs' dev') (hg : g.Sound) :
    g.table v' = Function.update (g.table v) clst (val % (endMark g.fsType + 1)) := by
  rcases h.outcome with ⟨-, -, -, htable⟩ | ⟨hno, -⟩ | ⟨hno, -⟩
  · funext k
    by_cases hk : k = clst
    · subst hk
      rw [Geometry.table, htable, tableEntry_put hg.mounted, Function.update_self]
    · rw [h.others k hk, Function.update_of_ne hk]
  · cases hno
  · cases hno

end Access

section Faults
variable {g : Geometry} {P : Nat → Prop} {fs : Fatfs} {clst k : Nat}

/-- Among the sectors that the window may show are those that it is moved to by itself. -/
structure Allows (g : Geometry) (P : Nat → Prop) : Prop where
  fat : ∀ n, g.InFat n → P n
  low : ∀ n < g.fatbase, P n
  none : P noSector

theorem maintains_reach (hg : g.Sound) (hP : Allows g P) (hfs : Around g P fs)
    (hk : k < tableBytes g) {α : Type} {fail : FResult → α} {rest : FResult → FatFs α}
    {post : α → Prop} (hrest : Maintains (Around g P) failedTransfer (rest .ok) post) :
    Maintains (Around g P) failedTransfer (do
      let res ← moveWindow (u32 (fs.fatbase + k / 512))
      if res ≠ .ok then pure (fail res) else rest res) post := by
  have htable := hg.table
  have hin : g.InFat (g.fatbase + k / 512) := ⟨by omega, by omega⟩
  have hlt := (hg.primary_inFat hin).1
  have hbase : fs.fatbase = g.fatbase := congrArg Geometry.fatbase hfs.geometry
  rw [hbase, u32, Nat.mod_eq_of_lt (by omega)]
  refine (maintains_moveWindow hP.none (hP.fat _ hin)).bind fun res =>
    maintains_ite (fun hres => maintains_pure fun hok => absurd hok hres) fun hres => ?_
  obtain rfl : res = .ok := not_not.mp hres
  exact hrest.mono fun _ hpost _ => hpost

theorem entry_places (hg : g.Sound) (hfs : Around g P fs)
    (hin : ¬(clst < 2 ∨ fs.nFatent ≤ clst)) :
    (fs.fsType = .fat12 → u32 (clst + clst / 2) + 1 < tableBytes g) ∧
      (fs.fsType = .fat16 → clst / (512 / 2) = clst * 2 / 512 ∧ clst * 2 < tableBytes g) ∧
      (fs.fsType = .fat32 → clst / (512 / 4) = clst * 4 / 512 ∧ clst * 4 < tableBytes g) := by
  have hmarks := hg.marks
  have hn : fs.nFatent = g.nFatent := congrArg Geometry.nFatent hfs.geometry
  rw [show fs.fsType = g.fsType from congrArg Geometry.fsType hfs.geometry]
  refine ⟨fun htype => ?_, fun htype => ?_, fun htype => ?_⟩
  · rw [htype] at hmarks
    simp only [endMark] at hmarks
    have hsmall : u32 (clst + clst / 2) = clst + clst / 2 := Nat.mod_eq_of_lt (by omega)
    simp only [tableBytes, htype, hsmall]
    omega
  · simp only [tableBytes, htype]
    omega
  · simp only [tableBytes, htype]
    omega

theorem entry_ne_diskError {a b : Nat} (ha : a < 256) (hb : b < 256) :
    (if clst &&& 1 ≠ 0 then (b <<< 8 ||| a) >>> 4 else (b <<< 8 ||| a) &&& 0xFFF) ≠ diskError := by
  have hword : b <<< 8 ||| a < 65536 := by
    rw [or_shiftLeft_byte ha]
    omega
  unfold diskError
  split
  · rw [Nat.shiftRight_eq_div_pow]
    omega
  · exact (Nat.and_le_right.trans_lt (by decide)).ne

theorem maintains_getFat (hg : g.Sound) (hP : Allows g P) (clst : Nat) :
    Maintains (Around g P) failedTransfer (getFat clst) (· ≠ diskError) := by
  refine maintains_get fun fs hfs => maintains_ite (fun _ => maintains_pure (by decide))
    fun hin => ?_
  obtain ⟨h12, h16, h32⟩ := entry_places hg hfs hin
  cases htype : fs.fsType with
  | unmounted => exact maintains_pure (by decide)
  | fat12 =>
    have hlast := h12 htype
    refine maintains_reach hg hP hfs (by omega) (maintains_get fun fs₁ hfs₁ => ?_)
    exact maintains_reach hg hP hfs₁ hlast (maintains_get fun fs₂ _ =>
      maintains_pure (entry_ne_diskError (UInt8.toNat_lt _) (UInt8.toNat_lt _)))
  | fat16 =>
    obtain ⟨hplace, hlt⟩ := h16 htype
    dsimp only
    rw [hplace]
    refine maintains_reach hg hP hfs hlt (maintains_get fun fs₁ _ => maintains_pure ?_)
    rw [ldWord_eq]
    exact ((word_lt fs₁.win.get _).trans (by decide)).ne
  | fat32 =>
    obtain ⟨hplace, hlt⟩ := h32 htype
    dsimp only
    rw [hplace]
    exact maintains_reach hg hP hfs hlt (maintains_get fun _ _ =>
      maintains_pure (Nat.and_le_right.trans_lt (by decide)).ne)

theorem maintains_storeWin (win : Sector) {α : Type} {rest : FatFs α} {post : α → Prop}
    (hrest : Maintains (Around g P) failedTransfer rest post) :
    Maintains (Around g P) failedTransfer (storeWin win >>= fun _ => rest) post :=
  (maintains_modify fun _ hfs => ⟨hfs.geometry, hfs.winsect⟩).bind
    fun _ => hrest.mono fun _ hpost _ => hpost

theorem maintains_putFat (hg : g.Sound) (hP : Allows g P) (clst val : Nat) :
    Maintains (Around g P) failedTransfer (putFat clst val) (· ≠ .diskErr) := by
  refine maintains_get fun fs hfs => maintains_ite (fun _ => maintains_pure (by decide))
    fun hin => ?_
  obtain ⟨h12, h16, h32⟩ := entry_places hg hfs hin
  have hdone : Maintains (Around g P) failedTransfer (pure FResult.ok : FatFs FResult)
      (· ≠ .diskErr) := maintains_pure (by decide)
  cases htype : fs.fsType with
  | unmounted => exact maintains_pure (by decide)
  | fat12 =>
    have hlast := h12 htype
    refine maintains_reach hg hP hfs (by omega) (maintains_get fun fs₁ hfs₁ => ?_)
    refine maintains_storeWin _ (maintains_reach hg hP hfs₁ hlast (maintains_get fun _ _ => ?_))
    exact maintains_storeWin _ hdone
  | fat16 =>
    obtain ⟨hplace, hlt⟩ := h16 htype
    dsimp only
    rw [hplace]
    exact maintains_reach hg hP hfs hlt (maintains_get fun _ _ => maintains_storeWin _ hdone)
  | fat32 =>
    obtain ⟨hplace, hlt⟩ := h32 htype
    dsimp only
    rw [hplace]
    exact maintains_reach hg hP hfs hlt (maintains_get fun _ _ => maintains_storeWin _ hdone)

end Faults

section Runs

inductive FatOp where
  | moveWindow (sector : Nat) (res : FResult)
  | syncWindow (res : FResult)
  | getFat (clst val : Nat)
  | putFat (clst val : Nat) (res : FResult)
  | syncFs (res : FResult)
  deriving DecidableEq, Repr

def fatStep (s : Fatfs × Device) (e : FatOp × Bool) (s' : Fatfs × Device) : Prop :=
  match e with
  | (.moveWindow sector res, failed) => s.1.Primary sector ∧
    Executes notedStep (moveWindow sector) s.1 (s.2, false) res s'.1 (s'.2, failed)
  | (.syncWindow res, failed) =>
    Executes notedStep syncWindow s.1 (s.2, false) res s'.1 (s'.2, failed)
  | (.getFat clst val, failed) =>
    Executes notedStep (getFat clst) s.1 (s.2, false) val s'.1 (s'.2, failed)
  | (.putFat clst val res, failed) =>
    Executes notedStep (putFat clst val) s.1 (s.2, false) res s'.1 (s'.2, failed)
  | (.syncFs res, failed) =>
    Executes notedStep syncFs s.1 (s.2, false) res s'.1 (s'.2, failed)

/-- The FAT as an array of numbers: what a `getFat` may return and a `putFat` may do. -/
def tableStep (g : Geometry) (t : Nat → Nat) (e : FatOp × Bool) (t' : Nat → Nat) : Prop :=
  match e with
  | (.moveWindow _ res, failed) | (.syncWindow res, failed) | (.syncFs res, failed) =>
    t' = t ∧ (res = .ok ∨ res = .diskErr ∧ failed = true)
  | (.getFat clst val, failed) =>
    t' = t ∧ (val = (if clst < 2 ∨ g.nFatent ≤ clst then 1 else t clst) ∨
      val = diskError ∧ failed = true)
  | (.putFat clst val res, failed) =>
    res = .ok ∧ (2 ≤ clst ∧ clst < g.nFatent) ∧
      t' = Function.update t clst (val % (endMark g.fsType + 1)) ∨
    (res = .diskErr ∧ failed = true) ∧ (2 ≤ clst ∧ clst < g.nFatent) ∧
      (∀ k, k ≠ clst → t' k = t k) ∧ (g.fsType = .fat12 ∨ t' = t) ∨
    res = .intErr ∧ (clst < 2 ∨ g.nFatent ≤ clst) ∧ t' = t

def HasTable (g : Geometry) (s : Fatfs × Device) (t : Nat → Nat) : Prop :=
  ∃ v, Presents g v s.1 s.2 ∧ t = g.table v

/-- The table that is found on the device itself, as after a restart; its copies agree where they
could be written. -/
structure OnDevice (g : Geometry) (dev : Device) (t : Nat → Nat) : Prop where
  table : ∀ k < g.nFatent, g.table dev.sectors k = t k
  copies : Mirrored g dev

variable {g : Geometry}

theorem tableEntry_congr {m m' : Cells} {k : Nat} (hk : k < g.nFatent)
    (h : ∀ i < tableBytes g, m' i = m i) : tableEntry g.fsType m' k = tableEntry g.fsType m k := by
  unfold tableBytes at h
  cases htype : g.fsType with
  | unmounted => rfl
  | fat12 =>
    simp only [htype] at h
    simp only [tableEntry, twelve, word_congr (h (k + k / 2) (by omega))
      (h (k + k / 2 + 1) (by omega))]
  | fat16 =>
    simp only [htype] at h
    exact word_congr (h (k * 2) (by omega)) (h (k * 2 + 1) (by omega))
  | fat32 =>
    simp only [htype] at h
    simp only [tableEntry, dword, word_congr (h (k * 4) (by omega)) (h (k * 4 + 1) (by omega)),
      word_congr (h (k * 4 + 2) (by omega)) (h (k * 4 + 2 + 1) (by omega))]

theorem HasTable.onDevice (hg : g.Sound) {s : Fatfs × Device} {t : Nat → Nat}
    (h : HasTable g s t) (hclean : s.1.wflag = false) : OnDevice g s.2 t := by
  obtain ⟨v, hshows, rfl⟩ := h
  refine ⟨fun k hk => tableEntry_congr hk fun i hi => ?_, hshows.mirrored⟩
  have htable := hg.table
  have hin : g.InFat (g.fatbase + i / 512) := ⟨by omega, by omega⟩
  rw [fatMemory, hshows.durable hclean (hg.primary_inFat hin), fatMemory]

theorem allows_all (g : Geometry) : Allows g fun _ => True :=
  ⟨fun _ _ => trivial, fun _ _ => trivial, trivial⟩

theorem fatStep_refines (hg : g.Sound) {s s' : Fatfs × Device} {e : FatOp × Bool}
    {t : Nat → Nat} (h : HasTable g s t) (hstep : fatStep s e s') :
    ∃ t', tableStep g t e t' ∧ HasTable g s' t' := by
  obtain ⟨v, hshows, rfl⟩ := h
  have hstart : Around g (fun _ => True) s.1 := ⟨hshows.geometry, trivial⟩
  have hfault : ∀ {res : FResult} {failed : Bool}, (failed = false → res = .ok) →
      res = .diskErr → res = .diskErr ∧ failed = true := by
    intro res failed hquiet herr
    refine ⟨herr, ?_⟩
    by_contra hno
    rw [hquiet (by simpa using hno)] at herr
    cases herr
  obtain ⟨op, failed⟩ := e
  cases op with
  | moveWindow sector res =>
    obtain ⟨hprimary, hrun⟩ := hstep
    rw [hshows.geometry] at hprimary
    have hmoved := (ensures_moveWindow hg hshows hprimary).executes hrun.forget
    have hquiet := ((maintains_moveWindow trivial trivial).executes hstart hrun).2
    refine ⟨_, ⟨rfl, ?_⟩, v, hmoved.shows, rfl⟩
    exact hmoved.outcome.imp And.left fun herr => hfault hquiet herr.1
  | syncWindow res =>
    have hsynced := (ensures_syncWindow hg hshows).executes hstep.forget
    have hquiet := (maintains_syncWindow.executes hstart hstep).2
    refine ⟨_, ⟨rfl, ?_⟩, v, hsynced.shows, rfl⟩
    exact hsynced.outcome.imp And.left fun herr => hfault hquiet herr.1
  | getFat clst val =>
    have hread := (ensures_getFat hg hshows clst).executes hstep.forget
    have hquiet := ((maintains_getFat hg (allows_all g) clst).executes hstart hstep).2
    refine ⟨_, ⟨rfl, hread.outcome.imp_right fun herr => ⟨herr, ?_⟩⟩, v, hread.shows, rfl⟩
    by_contra hno
    exact hquiet (by simpa using hno) herr
  | putFat clst val res =>
    obtain ⟨v', hput⟩ := (ensures_putFat hg hshows clst val).executes hstep.forget
    have hquiet := ((maintains_putFat hg (allows_all g) clst val).executes hstart hstep).2
    refine ⟨_, ?_, v', hput.shows, rfl⟩
    rcases hput.outcome with ⟨rfl, hclst, -⟩ | ⟨hres, hclst, hkeep⟩ | ⟨hres, hclst, rfl⟩
    · exact .inl ⟨rfl, hclst, hput.table hg⟩
    · refine .inr (.inl ⟨⟨hres, ?_⟩, hclst, hput.others, hkeep.imp_right ?_⟩)
      · by_contra hno
        exact hquiet (by simpa using hno) hres
      · rintro rfl
        rfl
    · exact .inr (.inr ⟨hres, hclst, rfl⟩)
  | syncFs res =>
    have hflush := (ensures_syncFs hg hshows).executes hstep.forget
    have hquiet := ((maintains_syncFs hg fun _ _ => trivial).executes hstart hstep).2
    refine ⟨_, ⟨rfl, ?_⟩, v, hflush.shows, rfl⟩
    exact hflush.outcome.imp And.left fun herr => hfault hquiet herr

/-- Whichever transfers fail, the FAT behaves as an array, with an error only from a call of which
one has failed; and a `sync_window` or `sync_fs` that succeeds leaves the whole array on the
device. -/
theorem fat_run (hg : g.Sound) {s s' : Fatfs × Device} {ops : List (FatOp × Bool)}
    {t : Nat → Nat} (hrep : HasTable g s t) (hrun : Follows fatStep s ops s') :
    ∃ t', Follows (tableStep g) t ops t' ∧ HasTable g s' t' ∧
      ∀ op failed, ops.getLast? = some (op, failed) → op = .syncFs .ok ∨ op = .syncWindow .ok →
        OnDevice g s'.2 t' := by
  have hsim : ∀ s e s' t, HasTable g s t → fatStep s e s' →
      ∃ t', tableStep g t e t' ∧ HasTable g s' t' :=
    fun s e s' t hrep hstep => fatStep_refines hg hrep hstep
  obtain ⟨t', htable, hrep'⟩ := hrun.refines (HasTable g) id hsim hrep
  rw [List.map_id] at htable
  refine ⟨t', htable, hrep', fun op failed hlast hsync => hrep'.onDevice hg ?_⟩
  obtain ⟨before, rfl⟩ := List.getLast?_eq_some_iff.mp hlast
  obtain ⟨u, hbefore, u', hstep, rfl⟩ := (follows_append ..).mp hrun
  obtain ⟨t₁, -, v, hshows, -⟩ := hbefore.refines (HasTable g) id hsim hrep
  rcases hsync with rfl | rfl
  · exact ((ensures_syncFs hg hshows).executes hstep.forget).outcome.elim And.right
      (fun hno => by cases hno)
  · rcases ((ensures_syncWindow hg hshows).executes hstep.forget).outcome with
      ⟨-, hclean⟩ | ⟨hno, -⟩
    · rw [hclean]
    · cases hno

def floppy : Geometry where
  fsType := .fat12
  csize := 1
  nFats := 2
  id := 1
  nRootdir := 224
  nFatent := 2849
  fsize := 9
  volbase := 0
  fatbase := 1
  dirbase := 19
  database := 33

theorem floppy_sound : floppy.Sound where
  mounted := by decide
  copies := by decide
  cluster := ⟨0, by decide, rfl⟩
  nonempty := by decide
  info := by decide
  table := by decide
  marks := by decide
  fats := by decide
  clusters := by decide

/-- The volume after mounting, on a device whose sectors are all zero. -/
def blank (g : Geometry) : Fatfs × Device :=
  ({ g with
      lastClust := 0, freeClust := 0xFFFFFFFF, fsiFlag := 0, wflag := false, winsect := noSector,
      win := .zero },
    ⟨fun _ => .zero, fun _ => false⟩)

theorem blank_shows (g : Geometry) : Presents g (fun _ => .zero) (blank g).1 (blank g).2 where
  geometry := rfl
  win := fun _ => rfl
  device := fun _ _ _ => rfl
  dirty := by simp [blank]
  mirrored := fun _ _ _ _ _ _ => rfl

theorem fat_run_floppy : ∃ (s' : Fatfs × Device) (t' : Nat → Nat),
    Follows (tableStep floppy) (floppy.table fun _ => .zero)
      [(.putFat 5 6 .ok, false), (.moveWindow 40 .ok, false), (.getFat 5 6, false),
        (.syncWindow .ok, false), (.putFat 6 0x0FFFFFFF .ok, false), (.getFat 6 0xFFF, false),
        (.syncFs .ok, false)] t' ∧ OnDevice floppy s'.2 t' := by
  obtain ⟨fs, dev, hplay⟩ := exists_executes_quiet
    (s := (blank floppy).1) (w := (blank floppy).2)
    (p := do
      let r ← putFat 5 6
      let r₁ ← moveWindow 40
      let r₂ ← getFat 5
      let r₃ ← syncWindow
      let r₄ ← putFat 6 0x0FFFFFFF
      let r₅ ← getFat 6
      let r₆ ← syncFs
      pure ([r, r₁, r₃, r₄, r₆], [r₂, r₅]))
    (a := ([.ok, .ok, .ok, .ok, .ok], [6, 0xFFF])) Device.serve_step Device.serve_quiet
    (by decide +kernel)
  simp only [executes_bind_quiet, executes_pure, Prod.mk.injEq, and_true] at hplay
  obtain ⟨r, fs₁, dev₁, hput, r₁, fs₂, dev₂, hmove, r₂, fs₃, dev₃, hget, r₃, fs₄, dev₄, hsync, r₄,
    fs₅, dev₅, hput', r₅, fs₆, dev₆, hget', r₆, fs₇, dev₇, hsync', hres, rfl, rfl⟩ := hplay
  simp only [List.cons.injEq, and_true] at hres
  obtain ⟨⟨rfl, rfl, rfl, rfl, rfl⟩, rfl, rfl⟩ := hres
  have hprimary : fs₁.Primary 40 := by
    obtain ⟨v, hwritten⟩ :=
      (ensures_putFat floppy_sound (blank_shows floppy) 5 6).executes hput.forget
    rw [hwritten.shows.geometry]
    simp [Geometry.Primary, floppy]
  have hrun : Follows fatStep (blank floppy) [(.putFat 5 6 .ok, false), (.moveWindow 40 .ok, false),
      (.getFat 5 6, false), (.syncWindow .ok, false), (.putFat 6 0x0FFFFFFF .ok, false),
      (.getFat 6 0xFFF, false), (.syncFs .ok, false)] (fs, dev) :=
    ⟨(fs₁, dev₁), hput, (fs₂, dev₂), ⟨hprimary, hmove⟩, (fs₃, dev₃), hget, (fs₄, dev₄), hsync,
      (fs₅, dev₅), hput', (fs₆, dev₆), hget', (fs, dev), hsync', rfl⟩
  obtain ⟨t', htable, -, hdev⟩ := fat_run floppy_sound ⟨_, blank_shows floppy, rfl⟩ hrun
  exact ⟨(fs, dev), t', htable, hdev _ _ rfl (.inl rfl)⟩

end Runs

end FtpServer

import FtpServer.Closing
import FtpServer.Opening

/-! Directories of `ff.c` on the sectors of a volume: the fixed root of FAT12 and FAT16, and tables
on a chain of clusters. What a search or a listing finds is what `Volume` says of the table. -/

namespace FtpServer
open Interaction CString

structure DirBase where
  attached : Bool
  id : Nat
  sclust : Nat
  fn : Bytes

/-- `dir` is where the entry begins in the window, and null for the root directory itself. -/
structure Dir extends DirBase where
  index : Nat
  clust : Nat
  sect : Nat
  dir : Option Nat

abbrev DirOp := ExceptT (FResult × Dir) FatFs

section Source

def leave {α : Type} (res : FResult) (dp : Dir) : DirOp α := throw (res, dp)

/-- `while (idx >= ic)`, with the cluster and what is left of the index. -/
def followTable (dp : Dir) (ic : Nat) : Nat → Nat → Nat → DirOp (Nat × Nat)
  | 0, _, _ => liftM (stuck : FatFs (Nat × Nat))
  | fuel + 1, clst, idx =>
    if ic ≤ idx then do
      let clst ← liftM (getFat clst)
      if clst = diskError then leave .diskErr dp
      else do
        let fs ← get
        if clst < 2 ∨ fs.nFatent ≤ clst then leave .intErr dp
        else followTable dp ic fuel clst (idx - ic)
    else pure (clst, idx)

/-- The end of `dir_sdi`, in the cluster `clst` that begins at `sect`. -/
def Dir.point (dp : Dir) (clst sect idx : Nat) : DirOp Dir :=
  if sect = 0 then leave .intErr { dp with clust := clst }
  else pure { dp with
    clust := clst, sect := u32 (sect + idx / 16), dir := some (idx % 16 * 32) }

def tableStart (g : Geometry) (sclust : Nat) : Nat :=
  if sclust = 0 ∧ g.fsType = .fat32 then g.dirbase else sclust

def Dir.dirSdi (dp : Dir) (idx : Nat) : DirOp Dir := do
  let fs ← get
  let dp := { dp with index := idx % 2 ^ 16 }
  if dp.sclust = 1 ∨ fs.nFatent ≤ dp.sclust then leave .intErr dp
  else
    let clst := tableStart fs.toGeometry dp.sclust
    if clst = 0 then
      -- static table
      if fs.nRootdir ≤ idx then leave .intErr dp
      else dp.point clst fs.dirbase idx
    else do
      -- dynamic table
      let r ← followTable dp (16 * fs.csize) (idx + 1) clst idx
      dp.point r.1 (clust2sect fs.toGeometry r.1) r.2

def clearLoop : Nat → FatFs FResult
  | 0 => pure .ok
  | n + 1 => do
    modify fun fs => { fs with wflag := true }
    let res ← syncWindow
    if res ≠ .ok then pure .diskErr
    else do
      modify fun fs => { fs with winsect := u32 (fs.winsect + 1) }
      clearLoop n

def Dir.stretchTable (dp : Dir) : DirOp Nat := do
  let clst ← liftM (createChain dp.clust)
  if clst = 0 then leave .denied dp
  else if clst = 1 then leave .intErr dp
  else if clst = diskError then leave .diskErr dp
  else do
    let res ← liftM syncWindow
    if res ≠ .ok then leave .diskErr dp
    else do
      -- clean-up stretched table
      let fs ← get
      liftM (modify fun fs =>
        { fs with win := .zero, winsect := clust2sect fs.toGeometry clst } : FatFs PUnit)
      let res ← liftM (clearLoop fs.csize)
      if res ≠ .ok then leave .diskErr dp
      else do
        liftM (modify fun fs =>
          { fs with winsect := u32 (fs.winsect + 2 ^ 32 - fs.csize) } : FatFs PUnit)
        pure clst

def Dir.advance (dp : Dir) (i : Nat) : Dir :=
  { dp with index := i % 2 ^ 16, dir := some (i % 16 * 32) }

def Dir.dirNext (dp : Dir) (stretch : Bool) : DirOp Dir :=
  let i := dp.index + 1
  if i % 2 ^ 16 = 0 ∨ dp.sect = 0 then leave .noFile dp
  else if i % 16 = 0 then do
    -- sector changed
    let dp := { dp with sect := u32 (dp.sect + 1) }
    let fs ← get
    if dp.clust = 0 then
      if fs.nRootdir ≤ i then leave .noFile dp
      else pure (dp.advance i)
    else if i / 16 &&& (fs.csize - 1) = 0 then do
      -- cluster changed
      let clst ← liftM (getFat dp.clust)
      if clst ≤ 1 then leave .intErr dp
      else if clst = diskError then leave .diskErr dp
      else if fs.nFatent ≤ clst then
        if stretch = false then leave .noFile dp
        else do
          let clst ← dp.stretchTable
          pure (Dir.advance { dp with clust := clst, sect := clust2sect fs.toGeometry clst } i)
      else pure (Dir.advance { dp with clust := clst, sect := clust2sect fs.toGeometry clst } i)
    else pure (dp.advance i)
  else pure (dp.advance i)

def entryName (win : Sector) (dir : Nat) : Bytes := (List.range 11).map fun k => win.get (dir + k)

def dirEntry (g : Geometry) (win : Sector) (dir : Nat) : DirEntry where
  name := entryName win dir
  attr := win.get (dir + 11)
  wrtDate := UInt16.ofNat (ldWord win (dir + 24))
  fileSize := UInt32.ofNat (ldDword win (dir + 28))
  clust := UInt32.ofNat (ldClust g win dir)
  name_length := List.length_map ..

def findLoop : Nat → Dir → DirOp Dir
  | 0, _ => liftM (stuck : FatFs Dir)
  | fuel + 1, dp => do
    let res ← liftM (moveWindow dp.sect)
    if res ≠ .ok then leave res dp
    else do
      let fs ← get
      match dp.dir with
      | none => liftM (stuck : FatFs Dir)
      | some dir =>
        if fs.win.get dir = 0 then leave .noFile dp
        else if fs.win.get (dir + 11) &&& amVol = 0 ∧ entryName fs.win dir = dp.fn then pure dp
        else do
          let dp ← dp.dirNext false
          findLoop fuel dp

def Dir.dirFind (dp : Dir) : DirOp Dir := do
  let dp ← dp.dirSdi 0
  findLoop (2 ^ 16) dp

end Source

/-- The sectors of a table: the fixed root directory, or a chain of clusters. -/
inductive DirArea where
  | root
  | chain (cs : List Nat)

def DirArea.sect (g : Geometry) : DirArea → Nat → Nat
  | .root, q => g.dirbase + q
  | .chain cs, q => fileSect g cs q

def DirArea.cluster (g : Geometry) : DirArea → Nat → Nat
  | .root, _ => 0
  | .chain cs, q => cs.getD (q / g.csize) 0

def DirArea.room (g : Geometry) : DirArea → Nat
  | .root => g.nRootdir
  | .chain cs => cs.length * g.csize * 16

def DirArea.count (g : Geometry) (area : DirArea) : Nat := min (area.room g) (2 ^ 16)

def DirAt (g : Geometry) (v : Sectors) (sclust : Nat) : DirArea → Prop
  | .root => sclust = 0 ∧ g.fsType ≠ .fat32
  | .chain cs => g.Cluster (tableStart g sclust) ∧ Chain g (g.table v) (tableStart g sclust) cs

/-- The fixed root directory, as `find_volume` accepts it: behind the FATs, in whole sectors. -/
structure Geometry.Rooted (g : Geometry) : Prop where
  aligned : g.nRootdir % 16 = 0
  nonempty : g.fsType ≠ .fat32 → 0 < g.nRootdir
  low : g.fsType ≠ .fat32 → g.fatbase + g.nFats * g.fsize ≤ g.dirbase
  high : g.fsType ≠ .fat32 → g.dirbase + g.nRootdir / 16 ≤ g.database

def DirArea.entry (g : Geometry) (v : Sectors) (area : DirArea) (i : Nat) : DirEntry :=
  dirEntry g (v (area.sect g (i / 16))) (i % 16 * 32)

def DirArea.table (g : Geometry) (v : Sectors) (area : DirArea) : List DirEntry :=
  (List.range (area.count g)).map (area.entry g v)

structure DirOn (g : Geometry) (area : DirArea) (dp : Dir) (i : Nat) : Prop where
  lt : i < area.count g
  index : dp.index = i
  clust : dp.clust = area.cluster g (i / 16)
  sect : dp.sect = area.sect g (i / 16)
  dir : dp.dir = some (i % 16 * 32)

section Tables
variable {g : Geometry} {v : Sectors} {fs : Fatfs} {dev : Device} {dp : Dir} {area : DirArea}
  {i q : Nat}

theorem DirAt.data (h : DirAt g v dp.sclust area) (hg : g.Sound) (hroot : g.Rooted)
    (hq : q * 16 < area.room g) : g.Data (area.sect g q) := by
  cases area with
  | root =>
    have hlow := hroot.low h.2
    have hhigh := hroot.high h.2
    have hfits := hg.clusters
    have hsome := hg.nonempty
    have hone : 1 * 1 ≤ (g.nFatent - 2) * g.csize := Nat.mul_le_mul (by omega) hg.csize_pos
    simp only [DirArea.room, DirArea.sect] at hq ⊢
    exact ⟨by omega, by omega⟩
  | chain cs =>
    simp only [DirArea.room] at hq
    have hhas : FileHas g cs q := by
      unfold FileHas
      omega
    exact hhas.data hg h.2.cluster

theorem DirArea.aligned (hroot : g.Rooted) : area.room g % 16 = 0 := by
  cases area with
  | root => exact hroot.aligned
  | chain cs => exact Nat.mul_mod_left _ 16

theorem DirOn.data (h : DirOn g area dp i) (hdir : DirAt g v dp.sclust area) (hg : g.Sound)
    (hroot : g.Rooted) : g.Data (area.sect g (i / 16)) := by
  have hlt := h.lt
  unfold DirArea.count at hlt
  exact hdir.data hg hroot (by omega)

theorem DirOn.advance (hlt : i + 1 < area.count g)
    (hclust : dp.clust = area.cluster g ((i + 1) / 16))
    (hsect : dp.sect = area.sect g ((i + 1) / 16)) : DirOn g area (dp.advance (i + 1)) (i + 1) := by
  have hsmall : (i + 1) % 2 ^ 16 = i + 1 := by
    unfold DirArea.count at hlt
    exact Nat.mod_eq_of_lt (by omega)
  exact ⟨hlt, hsmall, hclust, hsect, rfl⟩

structure DirMoved (g : Geometry) (v : Sectors) (area : DirArea) (dp : Dir) (i : Nat) (dp' : Dir)
    (fs' : Fatfs) (dev' : Device) : Prop where
  shows : Presents g v fs' dev'
  base : dp'.toDirBase = dp.toDirBase
  on : DirOn g area dp' i

structure DirLeft (g : Geometry) (v : Sectors) (obj : DirBase) (ended : Prop) (e : FResult × Dir)
    (fs' : Fatfs) (dev' : Device) : Prop where
  shows : Presents g v fs' dev'
  base : e.2.toDirBase = obj
  outcome : e.1 = .noFile ∧ ended ∨ e.1 = .diskErr

theorem DirAt.sclust (h : DirAt g v dp.sclust area) (hg : g.Sound) :
    dp.sclust ≠ 1 ∧ dp.sclust < g.nFatent := by
  have hsome := hg.nonempty
  cases area with
  | root =>
    obtain ⟨hzero, -⟩ := h
    omega
  | chain cs =>
    obtain ⟨hcluster, -⟩ := h
    have hlow := hcluster.1
    have hhigh := hcluster.2
    unfold tableStart at hlow hhigh
    split at hlow <;> simp_all <;> omega

theorem ensuresElse_dirSdi (hg : g.Sound) (hroot : g.Rooted) (hdir : DirAt g v dp.sclust area)
    (h : Presents g v fs dev) {fail : FResult × Dir → Fatfs → Device → Prop} :
    EnsuresElse deviceStep (dp.dirSdi 0) fs dev (DirMoved g v area dp 0) fail := by
  have hgeom := h.geometry
  obtain ⟨hone, hlt⟩ := hdir.sclust hg
  have hfew := hroot.nonempty
  have hsect : 0 < area.room g → area.sect g 0 ≠ 0 := fun hroom =>
    (hdir.data hg hroot (by omega)).pos hg
  have hhigh : 0 < area.room g → u32 (area.sect g 0 + 0 / 16) = area.sect g 0 := fun hroom =>
    Nat.mod_eq_of_lt (by have := (hdir.data hg hroot (q := 0) (by omega)).high; omega)
  simp only [Dir.dirSdi, ensuresElse_bind, ensuresElse_get, ensuresElse_ite, hgeom, leave,
    ensuresElse_throw]
  refine ⟨fun hno => absurd hno (by omega), fun _ => ⟨fun hzero => ?_, fun hstart => ?_⟩⟩
  · cases area with
    | root =>
      have hroom := hfew hdir.2
      have hnonzero := hsect hroom
      have hplace := hhigh hroom
      simp only [DirArea.sect, Nat.add_zero] at hnonzero hplace
      simp only [Dir.point, leave, ensuresElse_ite, ensuresElse_throw, ensuresElse_pure, hplace]
      refine ⟨fun hno => absurd hno (by omega), fun _ => ⟨fun hno => absurd hno hnonzero, fun _ =>
        ⟨h, rfl, ?_, rfl, hzero, rfl, rfl⟩⟩⟩
      simp only [DirArea.count, DirArea.room]
      omega
    | chain cs =>
      have hlow := hdir.1.1
      omega
  · cases area with
    | root =>
      refine absurd ?_ hstart
      simp [tableStart, hdir.1, hdir.2]
    | chain cs =>
      have hlen : 0 < cs.length := by
        rw [List.length_pos_iff]
        rintro rfl
        exact absurd hdir.1.2 (not_lt.mpr (chain_nil.mp hdir.2))
      have hfirst := hdir.2.head hlen
      have hpos := hg.csize_pos
      have hroom : 0 < (DirArea.chain cs).room g :=
        Nat.mul_pos (Nat.mul_pos hlen hpos) (by decide)
      have hstays : ¬16 * g.csize ≤ 0 := by omega
      have hnonzero := hsect hroom
      have hplace := hhigh hroom
      have hbegin : clust2sect g (tableStart g dp.sclust) = (DirArea.chain cs).sect g 0 := by
        rw [clust2sect_eq hg hdir.1, DirArea.sect, fileSect, Nat.zero_div, Nat.zero_mod, hfirst]
      simp only [followTable, hstays, if_false, ensuresElse_pure, Dir.point, leave, ensuresElse_ite,
        ensuresElse_throw, hbegin, hplace]
      refine ⟨fun hno => absurd hno hnonzero, fun _ => ⟨h, rfl, ?_, rfl, ?_, rfl, rfl⟩⟩
      · unfold DirArea.count
        omega
      · simp only [DirArea.cluster, Nat.zero_div]
        exact hfirst.symm

/-- What `get_fat` says at the end of a cluster: that the device fails, the cluster that sector
`q` of the chain begins, or that there is none. -/
def NextCluster (g : Geometry) (cs : List Nat) (q clst : Nat) : Prop :=
  clst = diskError ∨
    (g.Cluster clst ∧ FileHas g cs q ∧ clst = cs.getD (q / g.csize) 0 ∧
      clust2sect g clst = fileSect g cs q) ∨
    (g.nFatent ≤ clst ∧ clst ≠ diskError ∧ cs.length * g.csize = q)

theorem ensures_nextCluster (hg : g.Sound) (h : Presents g v fs dev) {first : Nat} {cs : List Nat}
    (hchain : Chain g (g.table v) first cs) (hhas : FileHas g cs q)
    (hborder : (q + 1) % g.csize = 0) :
    Ensures deviceStep (getFat (cs.getD (q / g.csize) 0)) fs dev (fun clst fs' dev' =>
      Presents g v fs' dev' ∧ NextCluster g cs (q + 1) clst) := by
  have hdvd := Nat.dvd_of_mod_eq_zero hborder
  have hdiv : (q + 1) / g.csize = q / g.csize + 1 := by rw [Nat.succ_div, if_pos hdvd]
  have hwhole : (q / g.csize + 1) * g.csize = q + 1 := hdiv ▸ Nat.div_mul_cancel hdvd
  apply (ensures_getFat hg h _).mono
  rintro clst fs' dev' ⟨hshows, -, -, hval, -⟩
  rw [fatValue_of_cluster (hhas.cluster hchain.cluster)] at hval
  refine ⟨hshows, ?_⟩
  rcases hval with rfl | rfl
  · right
    rcases hchain.next_or_last hhas.div_lt with ⟨hmore, hlink⟩ | ⟨hlast, -, hmark⟩
    · left
      have hpos := hg.csize_pos
      have hrow := Nat.mul_le_mul_right g.csize hmore
      have hhas' : FileHas g cs (q + 1) := by
        rw [Nat.succ_mul] at hrow
        unfold FileHas
        omega
      have hcluster := hhas'.cluster hchain.cluster
      rw [hdiv] at hcluster
      rw [hlink]
      refine ⟨hcluster, hhas', by rw [hdiv], ?_⟩
      rw [clust2sect_eq hg hcluster, fileSect, hdiv, hborder]
    · exact .inr ⟨hmark, table_ne_diskError hg _, by rw [← hlast, hwhole]⟩
  · exact .inl rfl

theorem inside_cluster {csize : Nat} (hpos : 0 < csize) (h : (q + 1) % csize ≠ 0) :
    q % csize + 1 < csize ∧ (q + 1) / csize = q / csize := by
  constructor
  · refine lt_of_le_of_ne (Nat.mod_lt q hpos) fun heq => h ?_
    rw [← Nat.div_add_mod q csize, Nat.add_assoc, heq, Nat.mul_add_mod, Nat.mod_self]
  · rw [Nat.succ_div, if_neg fun hdvd => h (Nat.mod_eq_zero_of_dvd hdvd), Nat.add_zero]

theorem ensuresElse_dirNext (hg : g.Sound) (hroot : g.Rooted) (hdir : DirAt g v dp.sclust area)
    (h : Presents g v fs dev) (hon : DirOn g area dp i) :
    EnsuresElse deviceStep (dp.dirNext false) fs dev (DirMoved g v area dp (i + 1))
      (DirLeft g v dp.toDirBase (area.count g ≤ i + 1)) := by
  have hgeom := h.geometry
  have hdata := hon.data hdir hg hroot
  have hlt := hon.lt
  have haligned : area.room g % 16 = 0 := DirArea.aligned hroot
  have hsect : dp.sect ≠ 0 := by
    rw [hon.sect]
    exact hdata.pos hg
  have hcount : ∀ {j}, j < area.room g → j < 2 ^ 16 → j < area.count g := fun hj hj' =>
    Nat.lt_min.mpr ⟨hj, hj'⟩
  have hroom : area.count g ≤ area.room g := Nat.min_le_left _ _
  have hcountLe : area.count g ≤ 2 ^ 16 := Nat.min_le_right _ _
  have hend : ∀ (res : FResult) (dp' : Dir) fs' dev', Presents g v fs' dev' →
      dp'.toDirBase = dp.toDirBase → (res = .noFile ∧ area.count g ≤ i + 1 ∨ res = .diskErr) →
      DirLeft g v dp.toDirBase (area.count g ≤ i + 1) (res, dp') fs' dev' :=
    fun _ _ _ _ hshows hbase houtcome => ⟨hshows, hbase, houtcome⟩
  simp only [Dir.dirNext, leave, ensuresElse_ite, ensuresElse_bind, ensuresElse_get,
    ensuresElse_throw, ensuresElse_pure, ensuresElse_lift, hgeom, hon.index]
  refine ⟨fun hlast => hend _ _ _ _ h rfl (.inl ⟨rfl, by omega⟩), fun hmore => ⟨fun hnext => ?_,
    fun hinside => ?_⟩⟩
  · obtain ⟨hwrap, -⟩ := not_or.mp hmore
    have hquot : (i + 1) / 16 = i / 16 + 1 := by omega
    have hnextSect : u32 (dp.sect + 1) = area.sect g (i / 16) + 1 := by
      rw [hon.sect]
      have hhigh := hdata.high
      exact Nat.mod_eq_of_lt (by omega)
    cases area with
    | root =>
      have hclust : dp.clust = 0 := hon.clust
      refine ⟨fun _ => ⟨fun hover => hend _ _ _ _ h rfl (.inl ⟨rfl, hroom.trans hover⟩),
        fun hin => ⟨h, rfl, DirOn.advance (hcount (not_le.mp hin) (by omega)) hclust ?_⟩⟩,
        fun hno => absurd hclust hno⟩
      rw [hquot]
      exact hnextSect
    | chain cs =>
      simp only [DirArea.room] at hroom haligned hcount
      have hhas : FileHas g cs (i / 16) := by
        unfold FileHas
        omega
      have hclust : dp.clust = cs.getD (i / 16 / g.csize) 0 := hon.clust
      have hlow := (hhas.cluster hdir.2.cluster).1
      refine ⟨fun hno => absurd hno (by omega), fun _ => ?_⟩
      rw [hquot, hg.and_mask, hclust]
      refine ⟨fun hborder => ?_, fun hsame => ?_⟩
      · -- the cluster behind that of entry `i`
        apply (ensures_nextCluster hg h hdir.2 hhas hborder).mono
        rintro clst fs' dev' ⟨hshows, rfl | ⟨hcluster, hhas', hnextClust, hbegin⟩ |
          ⟨hmark, hread, hwhole⟩⟩
        · refine ⟨fun hno => absurd hno (by decide), fun _ =>
            ⟨fun _ => hend _ _ _ _ hshows rfl (.inr rfl), fun hno => ?_⟩⟩
          exact absurd rfl hno
        · have hlow' := hcluster.1
          have hhigh' := hcluster.2
          have hread : clst ≠ diskError := by
            have hlimit := hg.nFatent_lt
            unfold diskError
            omega
          unfold FileHas at hhas'
          refine ⟨fun hno => absurd hno (by omega), fun _ => ⟨fun hno => absurd hno hread,
            fun _ => ⟨fun hno => absurd hno (by omega), fun _ => ⟨hshows, rfl,
              DirOn.advance (hcount (by omega) (by omega)) ?_ ?_⟩⟩⟩⟩
          · rw [hquot]
            exact hnextClust
          · rw [hquot, DirArea.sect, hbegin]
        · have hsome := hg.nonempty
          have hover : (DirArea.chain cs).count g ≤ i + 1 := by omega
          refine ⟨fun hno => absurd hno (by omega), fun _ => ⟨fun hno => absurd hno hread,
            fun _ => ⟨fun _ => ⟨fun _ => hend _ _ _ _ hshows rfl (.inl ⟨rfl, hover⟩),
              fun hno => ?_⟩, fun hno => absurd hmark hno⟩⟩⟩
          exact absurd trivial hno
      · obtain ⟨hstep, hdiv⟩ := inside_cluster hg.csize_pos hsame
        have hhas' := hhas.add hstep
        unfold FileHas at hhas'
        refine ⟨h, rfl, DirOn.advance (hcount (by omega) (by omega)) ?_ ?_⟩
        · rw [hquot, DirArea.cluster, hdiv]
        · rw [hquot]
          exact hnextSect.trans (fileSect_add hg hstep).symm
  · have hquot : (i + 1) / 16 = i / 16 := by omega
    refine ⟨h, rfl, DirOn.advance (hcount (by omega) (by omega)) ?_ ?_⟩
    · rw [hquot]
      exact hon.clust
    · rw [hquot]
      exact hon.sect

@[simp] theorem DirArea.length_table : (area.table g v).length = area.count g := by
  simp [DirArea.table]

theorem DirArea.drop_all (h : area.count g ≤ i) : (area.table g v).drop i = [] :=
  List.drop_eq_nil_of_le (by rwa [DirArea.length_table])

theorem DirArea.count_le_turns (i : Nat) : area.count g ≤ i + 2 ^ 16 :=
  (Nat.min_le_right _ _).trans (Nat.le_add_left _ _)

theorem DirArea.entry_ends : (area.entry g v i).name.head? = some 0 ↔
    (v (area.sect g (i / 16))).get (i % 16 * 32) = 0 :=
  Option.some_inj

theorem DirArea.drop_table (hi : i < area.count g) :
    (area.table g v).drop i = area.entry g v i :: (area.table g v).drop (i + 1) := by
  rw [List.drop_eq_getElem_cons (by rwa [DirArea.length_table])]
  simp [DirArea.table]

/-- What a search from entry `i` on finds, and shows in the window. -/
structure DirFound (g : Geometry) (v : Sectors) (area : DirArea) (obj : DirBase) (i : Nat)
    (dp' : Dir) (fs' : Fatfs) (dev' : Device) : Prop where
  shows : Presents g v fs' dev'
  base : dp'.toDirBase = obj
  window : fs'.win = v dp'.sect
  found : ∃ j, DirOn g area dp' j ∧
    dirFind obj.fn ((area.table g v).drop i) = some (area.entry g v j)

theorem ensuresElse_findLoop (hg : g.Sound) (hroot : g.Rooted) {fuel : Nat}
    (hfuel : area.count g ≤ i + fuel) (hdir : DirAt g v dp.sclust area) (h : Presents g v fs dev)
    (hon : DirOn g area dp i) :
    EnsuresElse deviceStep (findLoop fuel dp) fs dev (DirFound g v area dp.toDirBase i)
      (DirLeft g v dp.toDirBase (dirFind dp.fn ((area.table g v).drop i) = none)) := by
  induction fuel generalizing i dp fs dev with
  | zero => exact absurd hon.lt (by omega)
  | succ fuel ih =>
    have hdata := hon.data hdir hg hroot
    have hdrop := DirArea.drop_table (v := v) hon.lt
    simp only [findLoop, leave, ensuresElse_bind, ensuresElse_lift, ensuresElse_ite,
      ensuresElse_throw, ensuresElse_get, ensuresElse_pure, hon.dir, hon.sect]
    apply (ensures_moveWindow hg h (hdata.primary hg)).mono
    rintro res fs' dev' ⟨hshows, -, ⟨rfl, -, hwin⟩ | ⟨rfl, -⟩, -⟩
    · refine ⟨fun hno => absurd rfl hno, fun _ => ?_⟩
      rw [hwin]
      refine ⟨fun hzero => ⟨hshows, rfl, .inl ⟨rfl, ?_⟩⟩, fun hmore =>
        ⟨fun hmatch => ?_, fun hother => ?_⟩⟩
      · rw [hdrop, dirFind, if_pos (DirArea.entry_ends.mpr hzero)]
      · refine ⟨hshows, rfl, hon.sect ▸ hwin, i, hon, ?_⟩
        rw [hdrop, dirFind, if_neg (mt DirArea.entry_ends.mp hmore)]
        exact if_pos hmatch
      · have hskip : dirFind dp.fn ((area.table g v).drop i) =
            dirFind dp.fn ((area.table g v).drop (i + 1)) := by
          rw [hdrop, dirFind, if_neg (mt DirArea.entry_ends.mp hmore)]
          exact if_neg hother
        rw [hskip]
        apply (ensuresElse_dirNext hg hroot hdir hshows hon).mono
        · rintro dp' fs'' dev'' ⟨hshows', hbase, hon'⟩
          have hrest := ih (by omega) (by rwa [hbase]) hshows' hon'
          rw [hbase] at hrest
          apply hrest.mono
          · rintro dp'' fs₂ dev₂ ⟨hshows'', hbase', hwindow, hfound⟩
            exact ⟨hshows'', hbase', hwindow, hskip ▸ hfound⟩
          · exact fun _ _ _ hleft => hleft
        · rintro e fs'' dev'' ⟨hshows', hbase, houtcome⟩
          refine ⟨hshows', hbase, houtcome.imp_left ?_⟩
          rintro ⟨hres, hover⟩
          refine ⟨hres, ?_⟩
          rw [DirArea.drop_all hover, dirFind]
    · exact ⟨fun _ => ⟨hshows, rfl, .inr rfl⟩, fun hno => absurd hno (by decide)⟩

theorem ensuresElse_dirFind (hg : g.Sound) (hroot : g.Rooted) (hdir : DirAt g v dp.sclust area)
    (h : Presents g v fs dev) :
    EnsuresElse deviceStep dp.dirFind fs dev (DirFound g v area dp.toDirBase 0)
      (DirLeft g v dp.toDirBase (dirFind dp.fn (area.table g v) = none)) := by
  rw [Dir.dirFind, ensuresElse_bind]
  apply (ensuresElse_dirSdi hg hroot hdir h).mono
  · rintro dp' fs' dev' ⟨hshows, hbase, hon⟩
    have hloop := ensuresElse_findLoop hg hroot (DirArea.count_le_turns 0) (by rwa [hbase]) hshows
      hon
    rw [hbase] at hloop
    exact hloop
  · exact fun _ _ _ hleft => hleft

end Tables

section Aborting
variable {g : Geometry} {α β : Type}

/-- `FR_DISK_ERR` comes from a transfer that failed. -/
abbrev DirAborts (g : Geometry) (c : Prop) (p : DirOp α) : Prop :=
  Aborts g (fun _ => True) c p fun _ => True

theorem dirAborts_leave {c : Prop} {res : FResult} {dp : Dir} (h : c → res ≠ .diskErr) :
    DirAborts g c (leave res dp : DirOp α) :=
  maintainsElse_throw h

theorem dirAborts_pure {c : Prop} (a : α) : DirAborts g c (pure a) := aborts_pure fun _ => trivial

theorem DirAborts.bind {p : DirOp α} {f : α → DirOp β} (hp : DirAborts g True p)
    (hf : ∀ a, DirAborts g True (f a)) : DirAborts g True (p >>= f) :=
  Aborts.bind hp fun a => (hf a).weaken fun _ => trivial

theorem dirAborts_followTable (hg : g.Sound) (dp : Dir) (ic fuel clst idx : Nat) :
    DirAborts g True (followTable dp ic fuel clst idx) := by
  induction fuel generalizing clst idx with
  | zero => exact Maintains.lift maintains_stuck
  | succ fuel ih =>
    refine maintainsElse_ite (fun _ => ?_) fun _ => dirAborts_pure _
    refine (aborts_lift (maintains_getFat hg (allows_all g) _)).bind fun clst =>
      maintainsElse_ite (fun herr => dirAborts_leave fun hno => absurd herr hno.2) fun _ => ?_
    exact maintainsElse_get fun fs _ => maintainsElse_ite
      (fun _ => dirAborts_leave fun _ => nofun) fun _ => (ih _ _).weaken And.left

theorem dirAborts_dirSdi (hg : g.Sound) (dp : Dir) (idx : Nat) :
    DirAborts g True (dp.dirSdi idx) := by
  have hpoint : ∀ (dp : Dir) clst sect idx, DirAborts g True (dp.point clst sect idx) :=
    fun _ _ _ _ => maintainsElse_ite (fun _ => dirAborts_leave fun _ => nofun)
      fun _ => dirAborts_pure _
  refine maintainsElse_get fun fs _ => maintainsElse_ite
    (fun _ => dirAborts_leave fun _ => nofun) fun _ => maintainsElse_ite (fun _ => ?_) fun _ => ?_
  · exact maintainsElse_ite (fun _ => dirAborts_leave fun _ => nofun) fun _ => hpoint _ _ _ _
  · exact DirAborts.bind (dirAborts_followTable hg _ _ _ _ _) fun r => hpoint _ _ _ _

theorem dirAborts_dirNext (hg : g.Sound) (dp : Dir) : DirAborts g True (dp.dirNext false) := by
  refine maintainsElse_ite (fun _ => dirAborts_leave fun _ => nofun) fun _ =>
    maintainsElse_ite (fun _ => ?_) fun _ => dirAborts_pure _
  refine maintainsElse_get fun fs _ => maintainsElse_ite (fun _ => maintainsElse_ite
    (fun _ => dirAborts_leave fun _ => nofun) fun _ => dirAborts_pure _) fun _ =>
      maintainsElse_ite (fun _ => ?_) fun _ => dirAborts_pure _
  refine (aborts_lift (maintains_getFat hg (allows_all g) _)).bind fun clst => ?_
  refine maintainsElse_ite (fun _ => dirAborts_leave fun _ => nofun) fun _ => maintainsElse_ite
    (fun herr => dirAborts_leave fun hno => absurd herr hno.2) fun _ => ?_
  exact maintainsElse_ite (fun _ => maintainsElse_ite (fun _ => dirAborts_leave fun _ => nofun)
    fun hno => absurd rfl hno) fun _ => dirAborts_pure _

theorem dirAborts_findLoop (hg : g.Sound) (fuel : Nat) (dp : Dir) :
    DirAborts g True (findLoop fuel dp) := by
  induction fuel generalizing dp with
  | zero => exact Maintains.lift maintains_stuck
  | succ fuel ih =>
    refine (aborts_lift (maintains_moveWindow trivial trivial)).bind fun res => maintainsElse_ite
      (fun hres => dirAborts_leave fun hok => absurd hok.2 hres) fun _ =>
        maintainsElse_get fun fs _ => ?_
    cases dp.dir with
    | none => exact Maintains.lift maintains_stuck
    | some dir =>
      refine Aborts.weaken (c := True) ?_ fun _ => trivial
      refine maintainsElse_ite (fun _ => dirAborts_leave fun _ => nofun) fun _ =>
        maintainsElse_ite (fun _ => dirAborts_pure _) fun _ => ?_
      exact (dirAborts_dirNext hg dp).bind fun dp => ih dp

theorem dirAborts_dirFind (hg : g.Sound) (dp : Dir) : DirAborts g True dp.dirFind :=
  (dirAborts_dirSdi hg dp 0).bind fun dp => dirAborts_findLoop hg _ dp

end Aborting

end FtpServer

import FtpServer.Layout
import FtpServer.Disk

/-! `f_read`: sector by sector through the buffer of the file object, or straight into the
caller's memory where whole sectors are asked for. -/

namespace FtpServer
open Interaction CString

abbrev FileOp := ExceptT (FResult × Fil) FatFs

section Source

def abort {α : Type} (res : FResult) (fp : Fil) : FileOp α := throw (res, { fp with err := res })

def readCluster (fp : Fil) (csect : Nat) : FileOp Fil :=
  if csect = 0 then do
    let clst ← if fp.fptr = 0 then pure fp.sclust else liftM (getFat fp.clust)
    if clst < 2 then abort .intErr fp
    else if clst = diskError then abort .diskErr fp
    else pure { fp with clust := clst }
  else pure fp

def flushBuf (fp : Fil) : FileOp Fil :=
  if fp.dirty = true then do
    let res ← liftM (diskWrite1 fp.buf fp.dsect)
    if res ≠ .ok then abort .diskErr fp
    else pure { fp with dirty := false }
  else pure fp

def loadBuf (fp : Fil) (sect : Nat) : FileOp Fil := do
  let (res, data) ← liftM (diskRead1 sect)
  if res ≠ .ok then abort .diskErr { fp with buf := data }
  else pure { fp with buf := data }

def fillBuf (fp : Fil) (sect : Nat) : FileOp Fil :=
  if fp.dsect ≠ sect then do
    let fp ← flushBuf fp
    let fp ← loadBuf fp sect
    pure { fp with dsect := sect }
  else pure fp

/-- The sectors just read, with the one in the buffer in place of its copy on the disk. -/
def patchBuf (fp : Fil) (sect : Nat) {cc : Nat} (data : Vector Sector cc) : Vector Sector cc :=
  if fp.dirty = true ∧ u32 (fp.dsect + 2 ^ 32 - sect) < cc then
    data.setIfInBounds (u32 (fp.dsect + 2 ^ 32 - sect)) fp.buf
  else data

def pickBuf (fp : Fil) (btr : Nat) : Bytes :=
  let rcnt := 512 - fp.fptr % 512
  fp.buf.slice (fp.fptr % 512) (if btr < rcnt then btr else rcnt)

def readDirect (fp : Fil) (sect cc : Nat) : FileOp (Fil × Bytes) := do
  let (res, data) ← liftM (request (DiskCall.read sect cc) : FatFs _)
  if res ≠ .ok then abort .diskErr fp
  else pure (fp, (patchBuf fp sect data).toList.flatMap Sector.bytes)

/-- One pass of the loop of `f_read`, with the bytes it has moved. -/
def readPass (fp : Fil) (btr : Nat) : FileOp (Fil × Bytes) :=
  if fp.fptr % 512 = 0 then do
    let fs ← get
    let csect := fp.fptr / 512 &&& (fs.csize - 1)
    let fp ← readCluster fp csect
    let sect := clust2sect fs.toGeometry fp.clust
    if sect = 0 then abort .intErr fp
    else do
      let sect := u32 (sect + csect)
      let cc := btr / 512
      if cc ≠ 0 then
        readDirect fp sect (if fs.csize < csect + cc then fs.csize - csect else cc)
      else do
        let fp ← fillBuf fp sect
        pure (fp, pickBuf fp btr)
  else pure (fp, pickBuf fp btr)

/-- `done` is what has been read before. -/
def readLoop : Nat → Fil → Nat → Bytes → FatFs (FResult × Fil × Bytes)
  | 0, _, _, _ => stuck
  | fuel + 1, fp, btr, done =>
    if btr = 0 then pure (.ok, fp, done)
    else do
      match ← (readPass fp btr).run with
      | .error (res, fp) => pure (res, fp, done)
      | .ok (fp, data) =>
        readLoop fuel { fp with fptr := fp.fptr + data.length } (btr - data.length) (done ++ data)

/-- With the file object and the bytes in the caller's memory. -/
def Fil.fRead (fp : Fil) (btr : Nat) : FatFs (FResult × Fil × Bytes) := do
  let res ← validate fp
  if res ≠ .ok then pure (res, fp, [])
  else if fp.err ≠ .ok then pure (fp.err, fp, [])
  else if fp.read = false then pure (.denied, fp, [])
  else
    let remain := u32 (fp.fsize + 2 ^ 32 - fp.fptr)
    let btr := if remain < btr then remain else btr
    readLoop (btr + 1) fp btr []

end Source

section Buffer
variable {g : Geometry} {w : Sectors} {fs fs' : Fatfs} {dev dev' : Device} {fp fp' : Fil}
  {cs : List Nat} {q sect : Nat} {α : Type}

/-- An error that has cost nothing but the further use of the file object. -/
structure Aborted (g : Geometry) (w : Sectors) (fp : Fil) (cs : List Nat) (e : FResult × Fil)
    (fs' : Fatfs) (dev' : Device) : Prop where
  placed : Placed g w fs' dev' e.2 cs
  failed : e.1 = .diskErr ∧ e.2.err = e.1
  base : e.2.toFilBase = fp.toFilBase
  fptr : e.2.fptr = fp.fptr

structure Cleaned (g : Geometry) (w : Sectors) (fs : Fatfs) (fp : Fil) (cs : List Nat) (fp' : Fil)
    (fs' : Fatfs) (dev' : Device) : Prop where
  placed : Placed g w fs' dev' fp' cs
  fil : fp' = { fp with dirty := false }
  window : fs' = fs

structure Unflushed (g : Geometry) (w : Sectors) (fs : Fatfs) (fp : Fil) (cs : List Nat)
    (e : FResult × Fil) (fs' : Fatfs) (dev' : Device) : Prop where
  placed : Placed g w fs' dev' fp cs
  error : e = (.diskErr, { fp with err := .diskErr })
  window : fs' = fs

theorem Unflushed.aborted {e : FResult × Fil} (h : Unflushed g w fs fp cs e fs' dev') :
    Aborted g w fp cs e fs' dev' := by
  obtain ⟨hplaced, rfl, -⟩ := h
  exact ⟨hplaced.set _ _ _, ⟨rfl, rfl⟩, rfl, rfl⟩

theorem Placed.abort (h : Placed g w fs' dev' fp' cs) (hbase : fp'.toFilBase = fp.toFilBase)
    (hfptr : fp'.fptr = fp.fptr) {post : α → Fatfs → Device → Prop} :
    EnsuresElse deviceStep (abort .diskErr fp' : FileOp α) fs' dev' post (Aborted g w fp cs) := by
  simp only [FtpServer.abort, ensuresElse_throw]
  exact ⟨h.set _ _ _, ⟨rfl, rfl⟩, hbase, hfptr⟩

/-- Writing the buffer back moves it from over the volume into it. If that fails it is still
over it, whatever the device now has there. -/
theorem ensuresElse_flushBuf (hg : g.Sound) (h : Placed g w fs dev fp cs) :
    EnsuresElse deviceStep (flushBuf fp) fs dev (Cleaned g w fs fp cs)
      (Unflushed g w fs fp cs) := by
  simp only [flushBuf, ensuresElse_ite, ensuresElse_bind, ensuresElse_lift, ensuresElse_pure,
    abort, ensuresElse_throw]
  refine ⟨fun hdirty => ?_, fun hclean => ?_⟩
  · obtain ⟨q, hq, hsect⟩ := h.loaded hdirty
    obtain ⟨v, hshows, hover⟩ := h.shows
    refine ensures_diskWrite1 _ (hsect ▸ (h.data hg hq).high) fun res data hdata => ?_
    have hput := hshows.put (hsect ▸ h.data hg hq) (hsect ▸ h.apart q hq) data res
    have hover' : Function.update v fp.dsect fp.buf = w := by
      rwa [Fil.over, if_pos hdirty] at hover
    refine ⟨fun hres => ?_, fun hres => ?_⟩
    · have hplaced : Placed g w fs (dev.put fp.dsect data res) fp cs := by
        refine ⟨⟨_, hput, ?_⟩, h.id, h.clusters, h.nodup, h.loaded, h.apart⟩
        simp only [Fil.over, hdirty, if_true, Function.update_idem]
        exact hover'
      exact ⟨hplaced, rfl, rfl⟩
    · obtain rfl := hdata (by simpa using hres)
      refine ⟨⟨⟨_, hput, ?_⟩, h.id, h.clusters, h.nodup,
        fun hno => absurd hno Bool.false_ne_true, h.apart⟩, rfl, rfl⟩
      simpa [Fil.over] using hover'
  · have hflag : fp.dirty = false := by simpa using hclean
    refine ⟨h, ?_, rfl⟩
    rw [← hflag]

structure Filled (g : Geometry) (w : Sectors) (fs : Fatfs) (fp : Fil) (cs : List Nat) (sect : Nat)
    (fp' : Fil) (fs' : Fatfs) (dev' : Device) : Prop where
  placed : Placed g w fs' dev' fp' cs
  fil : ∃ dirty, fp' = { fp with dirty := dirty, buf := w sect, dsect := sect } ∧
    (fp.dirty = false → dirty = false)
  window : fs' = fs

theorem Placed.device (h : Placed g w fs dev fp cs) (hg : g.Sound) (hclean : fp.dirty = false)
    (hq : FileHas g cs q) : dev.sectors (fileSect g cs q) = w (fileSect g cs q) := by
  obtain ⟨v, hshows, hover⟩ := h.shows
  rw [Fil.over, if_neg (by simp [hclean])] at hover
  rw [← hover]
  exact hshows.device _ ((h.data hg hq).primary hg) fun _ heq => h.apart q hq heq.symm

structure Loaded (g : Geometry) (w : Sectors) (fs : Fatfs) (fp : Fil) (cs : List Nat) (sect : Nat)
    (fp' : Fil) (fs' : Fatfs) (dev' : Device) : Prop where
  placed : Placed g w fs' dev' fp' cs
  fil : fp' = { fp with buf := w sect }
  window : fs' = fs

theorem ensuresElse_loadBuf (hg : g.Sound) (h : Placed g w fs dev fp cs) (hclean : fp.dirty = false)
    (hq : FileHas g cs q) :
    EnsuresElse deviceStep (loadBuf fp (fileSect g cs q)) fs dev
      (Loaded g w fs fp cs (fileSect g cs q)) (Aborted g w fp cs) := by
  simp only [loadBuf, ensuresElse_bind, ensuresElse_lift, ensuresElse_ite, ensuresElse_pure]
  have hread := h.device hg hclean hq
  obtain ⟨v, hshows, hover⟩ := h.shows
  have hloaded : ∀ data, Placed g w fs dev { fp with buf := data } cs := by
    refine fun data => ⟨⟨v, hshows, ?_⟩, h.id, h.clusters, h.nodup, h.loaded, h.apart⟩
    rw [← hover]
    simp [Fil.over, hclean]
  refine ensures_diskRead1 (h.data hg hq).high fun res data hdata => ⟨fun _ => ?_, fun hres => ?_⟩
  · exact (hloaded data).abort (by rfl) (by rfl)
  · obtain rfl := hdata (by simpa using hres)
    exact ⟨hloaded _, by rw [hread], rfl⟩

theorem Placed.toSector (h : Placed g w fs dev fp cs) (hclean : fp.dirty = false) (sect : Nat) :
    Placed g w fs dev { fp with dsect := sect } cs := by
  obtain ⟨v, hshows, hover⟩ := h.shows
  refine ⟨⟨v, hshows, ?_⟩, h.id, h.clusters, h.nodup, ?_, h.apart⟩
  · rw [← hover]
    simp [Fil.over, hclean]
  · intro hdirty
    exact absurd (hclean.symm.trans hdirty) Bool.false_ne_true

theorem ensuresElse_fillBuf (hg : g.Sound) (h : Placed g w fs dev fp cs) (hq : FileHas g cs q)
    (hbuf : fp.dsect = fileSect g cs q → fp.buf = w (fileSect g cs q)) :
    EnsuresElse deviceStep (fillBuf fp (fileSect g cs q)) fs dev
      (Filled g w fs fp cs (fileSect g cs q)) (Aborted g w fp cs) := by
  simp only [fillBuf, ensuresElse_ite, ensuresElse_bind, ensuresElse_pure]
  refine ⟨fun _ => ?_, fun hthere => ?_⟩
  · apply (ensuresElse_flushBuf hg h).mono
    · rintro _ fs₁ dev₁ ⟨hplaced, rfl, rfl⟩
      apply (ensuresElse_loadBuf hg hplaced rfl hq).mono
      · rintro _ fs₂ dev₂ ⟨hplaced', rfl, rfl⟩
        exact ⟨hplaced'.toSector rfl _, ⟨false, rfl, fun _ => rfl⟩, rfl⟩
      · exact fun e _ _ habort => ⟨habort.placed, habort.failed, habort.base, habort.fptr⟩
    · exact fun _ _ _ hkept => hkept.aborted
  · have hsame : fp.dsect = fileSect g cs q := by simpa using hthere
    refine ⟨h, ⟨fp.dirty, ?_, id⟩, rfl⟩
    rw [← hbuf hsame, ← hsame]

theorem Placed.near (h : Placed g w fs dev fp cs) (hg : g.Sound) {v : Sectors}
    (hshows : Presents g v fs' dev') (hnear : g.Near fs fs') :
    Placed g (fp.over v) fs' dev' fp cs :=
  ⟨⟨v, hshows, rfl⟩, h.id, h.clusters, h.nodup, h.loaded,
    fun q hq => hnear.apart hg (h.data hg hq) (h.apart q hq)⟩

theorem Placed.fatValue (h : Placed g w fs dev fp cs) (hg : g.Sound) {v : Sectors}
    (hover : fp.over v = w) {c : Nat} (hc : g.Cluster c) :
    fatValue g (fatMemory g v) c = g.table w c := by
  rw [fatValue_of_cluster hc, ← hover, h.table_over hg hc]

/-- `readCluster` and its counterpart of `f_write` have come to the cluster of sector `q`. -/
structure Reached (g : Geometry) (w : Sectors) (fs : Fatfs) (fp : Fil) (cs : List Nat) (q : Nat)
    (fp' : Fil) (fs' : Fatfs) (dev' : Device) : Prop where
  placed : Placed g w fs' dev' fp' cs
  fil : fp' = { fp with clust := cs.getD (q / g.csize) 0 }
  clean : fs.wflag = false → fs'.wflag = false

theorem pred_div {csize q : Nat} (hq : q ≠ 0) :
    (q * 512 - 1) / 512 / csize =
      if q % csize = 0 then q / csize - 1 else q / csize := by
  obtain ⟨k, rfl⟩ := Nat.exists_eq_succ_of_ne_zero hq
  have hbyte : (k.succ * 512 - 1) / 512 = k := by omega
  rw [hbyte, Nat.succ_eq_add_one, Nat.succ_div]
  split
  · rename_i hmod
    rw [if_pos (Nat.dvd_of_mod_eq_zero hmod), Nat.add_sub_cancel]
  · rename_i hmod
    rw [if_neg fun hdvd => hmod (Nat.mod_eq_zero_of_dvd hdvd), Nat.add_zero]

theorem last_div {csize q cc : Nat} (hcc : 0 < cc) (hclip : q % csize + cc ≤ csize) :
    (q * 512 + cc * 512 - 1) / 512 / csize = q / csize := by
  have hsect : (q * 512 + cc * 512 - 1) / 512 = q + (cc - 1) := by omega
  have hpos : 0 < csize := by omega
  rw [hsect, ← Nat.div_add_mod q csize, Nat.add_assoc, Nat.mul_add_div hpos,
    Nat.div_eq_of_lt (show q % csize + (cc - 1) < csize by omega), Nat.mul_add_div hpos,
    Nat.div_eq_of_lt (Nat.mod_lt _ hpos)]

theorem ensuresElse_readCluster (hg : g.Sound) (h : Opened g w fs dev fp cs)
    (hptr : fp.fptr = q * 512) (hq : FileHas g cs q) :
    EnsuresElse deviceStep (readCluster fp (q % g.csize)) fs dev (Reached g w fs fp cs q)
      (Aborted g w fp cs) := by
  have hlt := hq.div_lt
  have hcluster := hq.cluster h.clusters
  have hchain : Chain g (g.table w) fp.sclust cs := by
    rcases h.chain with ⟨rfl, -⟩ | ⟨-, hchain⟩
    · cases hlt
    · exact hchain
  have hread : ∀ c, g.Cluster c → c ≠ diskError := by
    intro c hc
    have hhigh := hc.2
    have hend := hg.nFatent_lt
    unfold diskError
    omega
  simp only [readCluster, ensuresElse_ite, ensuresElse_pure, ensuresElse_bind, ensuresElse_lift]
  refine ⟨fun hstart => ⟨fun hzero => ?_, fun hpos => ?_⟩, fun hinside => ?_⟩
  · obtain rfl : q = 0 := by omega
    have hfirst : fp.sclust = cs.getD (0 / g.csize) 0 := by
      rw [Nat.zero_div] at hlt ⊢
      exact (hchain.head hlt).symm
    rw [hfirst]
    exact ⟨fun hno => absurd hcluster.1 (not_le.mpr hno),
      fun _ => ⟨fun hno => absurd hno (hread _ hcluster), fun _ => ⟨h.set _ _ _, rfl, id⟩⟩⟩
  · -- the cluster of the byte before is the one before this
    have hbefore := h.clust hpos
    rw [hptr, pred_div (by omega), if_pos hstart] at hbefore
    obtain ⟨k, hk⟩ : ∃ k, q / g.csize = k + 1 := by
      have hmul := Nat.div_add_mod q g.csize
      refine Nat.exists_eq_succ_of_ne_zero fun hno => ?_
      rw [hno, hstart] at hmul
      omega
    rw [hk] at hbefore hlt hcluster
    rw [Nat.add_sub_cancel] at hbefore
    have hnext := hchain.next hlt
    have hprev : g.Cluster fp.clust := by
      rw [hbefore, List.getD_eq_getElem _ _ (by omega)]
      exact h.clusters _ (List.getElem_mem _)
    obtain ⟨v, hshows, hover⟩ := h.shows
    apply (ensures_getFat hg hshows fp.clust).mono
    rintro clst fs₁ dev₁ ⟨hshows', -, hnear, hval, hclean⟩
    have hplaced := hover ▸ h.toPlaced.near hg hshows' hnear
    rw [h.fatValue hg hover hprev, hbefore, hnext] at hval
    rcases hval with rfl | rfl
    · exact ⟨fun hno => absurd hcluster.1 (not_le.mpr hno),
        fun _ => ⟨fun hno => absurd hno (hread _ hcluster),
          fun _ => ⟨hplaced.set _ _ _, by rw [hk], hclean⟩⟩⟩
    · exact ⟨fun hno => absurd hno (by decide),
        fun _ => ⟨fun _ => hplaced.abort rfl rfl, fun hno => absurd rfl hno⟩⟩
  · have hpos : q ≠ 0 := by
      rintro rfl
      exact hinside (Nat.zero_mod _)
    have hbefore := h.clust (by omega)
    rw [hptr, pred_div hpos, if_neg hinside] at hbefore
    exact ⟨h.toPlaced, by rw [← hbefore], id⟩

end Buffer

section Loop
variable {g : Geometry} {w : Sectors} {fs fs' : Fatfs} {dev : Device} {fp fp' : Fil} {cs : List Nat}
  {q n btr : Nat}

theorem clust2sect_fileSect (hg : g.Sound) (hcs : ∀ c ∈ cs, g.Cluster c) (hq : FileHas g cs q) :
    clust2sect g (cs.getD (q / g.csize) 0) ≠ 0 ∧
      u32 (clust2sect g (cs.getD (q / g.csize) 0) + q % g.csize) = fileSect g cs q := by
  have hcluster := hq.cluster hcs
  rw [clust2sect_eq hg hcluster]
  refine ⟨(hg.data_cluster hcluster hg.csize_pos).pos hg, ?_⟩
  have hhigh := (hq.data hg hcs).high
  have hsum : clusterSect g (cs.getD (q / g.csize) 0) 0 + q % g.csize = fileSect g cs q := by
    simp only [fileSect, clusterSect]
    omega
  rw [hsum, u32, Nat.mod_eq_of_lt (by omega)]

theorem u32_sub_eq {a b k : Nat} (ha : a < 2 ^ 32) (hb : b + k < 2 ^ 32) :
    u32 (a + 2 ^ 32 - b) = k ↔ a = b + k := by
  unfold u32
  omega

theorem get_patchBuf (fp : Fil) (sect : Nat) {cc : Nat} (data : Vector Sector cc) (i : Fin cc) :
    (patchBuf fp sect data).get i =
      if fp.dirty = true ∧ u32 (fp.dsect + 2 ^ 32 - sect) = i then fp.buf else data.get i := by
  unfold patchBuf
  split
  · rename_i hpatch
    change (data.setIfInBounds _ fp.buf)[i.1] = _
    simp only [Vector.getElem_setIfInBounds, hpatch.1, true_and]
    rfl
  · rename_i hno
    refine (if_neg fun hit : fp.dirty = true ∧ _ => hno ⟨hit.1, ?_⟩).symm
    rw [hit.2]
    exact i.2

theorem Placed.patched (h : Placed g w fs dev fp cs) (hg : g.Sound) (hq : FileHas g cs q) {cc : Nat}
    (hcc : q % g.csize + cc ≤ g.csize) {data : Vector Sector cc}
    (hdata : ∀ i : Fin cc, data.get i = dev.sectors (fileSect g cs q + i)) (i : Fin cc) :
    (patchBuf fp (fileSect g cs q) data).get i = w (fileSect g cs (q + i)) := by
  have hhas : ∀ k < cc, FileHas g cs (q + k) ∧ fileSect g cs (q + k) = fileSect g cs q + k := by
    intro k hk
    exact ⟨hq.add (by omega), fileSect_add hg (by omega)⟩
  obtain ⟨hi, hsect⟩ := hhas i i.2
  obtain ⟨v, hshows, rfl⟩ := h.shows
  have hdev : data.get i = v (fileSect g cs (q + i)) := by
    rw [hdata i, ← hsect]
    exact hshows.device _ ((h.data hg hi).primary hg) fun _ heq => h.apart _ hi heq.symm
  have hhigh := (h.data hg hi).high
  rw [get_patchBuf, hdev, Fil.over]
  by_cases hdirty : fp.dirty = true
  · obtain ⟨k, hk, hbuf⟩ := h.loaded hdirty
    have hhigh' := (h.data hg hk).high
    have hplace := u32_sub_eq (a := fileSect g cs k) (b := fileSect g cs q) (k := i) (by omega)
      (by omega)
    rw [← hsect] at hplace
    simp only [hdirty, true_and, if_true, hbuf, hplace, Function.update_apply,
      eq_comm (a := fileSect g cs k)]
  · rw [if_neg hdirty, if_neg fun hno => hdirty hno.1]

structure Passed (g : Geometry) (w : Sectors) (fs : Fatfs) (fp : Fil) (cs : List Nat) (btr : Nat)
    (r : Fil × Bytes) (fs' : Fatfs) (dev' : Device) : Prop where
  some : 0 < r.2.length ∧ r.2.length ≤ btr
  bytes : r.2 = fileBytes g cs w fp.fptr r.2.length
  fptr : r.1.fptr = fp.fptr
  base : r.1.toFilBase = fp.toFilBase
  opened : Opened g w fs' dev' { r.1 with fptr := fp.fptr + r.2.length } cs
  clean : Rests fs fp.dirty fs' r.1.dirty

theorem Opened.has (h : Opened g w fs dev fp cs) (hmore : fp.fptr < fp.fsize) :
    FileHas g cs (fp.fptr / 512) := by
  have hsize := h.size
  exact Nat.div_lt_of_lt_mul (by omega)

structure Ready (g : Geometry) (w : Sectors) (fs : Fatfs) (dev : Device) (fp : Fil)
    (cs : List Nat) : Prop extends Placed g w fs dev fp cs, Linked g w fp.toFilBase cs where
  noErr : fp.err = .ok
  clust : fp.clust = cs.getD (fp.fptr / 512 / g.csize) 0
  dsect : fp.dsect = fileSect g cs (fp.fptr / 512)
  buf : fp.buf = w fp.dsect

theorem Opened.ready (h : Opened g w fs dev fp cs) (hg : g.Sound) (hinside : fp.fptr % 512 ≠ 0) :
    Ready g w fs dev fp cs := by
  have hle := h.fptr
  have hsect := h.inBuf hinside
  have hsize := h.size
  have hhas : FileHas g cs (fp.fptr / 512) := Nat.div_lt_of_lt_mul (by omega)
  refine ⟨h.toPlaced, h.toLinked, h.noErr, ?_, hsect, (h.buffer ?_).2⟩
  · have hbyte : (fp.fptr - 1) / 512 = fp.fptr / 512 := by omega
    rw [h.clust (by omega), hbyte]
  · rw [hsect]
    exact (h.data hg hhas).pos hg

theorem Ready.pick (h : Ready g w fs dev fp cs) (hbtr : 0 < btr) (hleft : fp.fptr + btr ≤ fp.fsize)
    (hbase : fp.toFilBase = fp'.toFilBase) (hfptr : fp.fptr = fp'.fptr)
    (hclean : Rests fs' fp'.dirty fs fp.dirty) :
    Passed g w fs' fp' cs btr (fp, pickBuf fp btr) fs dev := by
  have hsize := h.size
  have hhas : FileHas g cs (fp.fptr / 512) := Nat.div_lt_of_lt_mul (by omega)
  have hfits : ∀ n, n ≤ btr → n ≤ 512 - fp.fptr % 512 →
      fp.buf.slice (fp.fptr % 512) n = fileBytes g cs w fp.fptr n := by
    intro n _ hn
    rw [h.buf, h.dsect, ← fileBytes_slice (by omega), Nat.div_add_mod']
  obtain ⟨n, hpos, hn, hn', hpick⟩ : ∃ n, 0 < n ∧ n ≤ btr ∧ n ≤ 512 - fp.fptr % 512 ∧
      pickBuf fp btr = fp.buf.slice (fp.fptr % 512) n := by
    refine ⟨_, ?_, ?_, ?_, rfl⟩ <;> split <;> omega
  have hbytes := hfits n hn hn'
  have hlen : (pickBuf fp btr).length = n := by rw [hpick, hbytes, length_fileBytes]
  refine ⟨by rw [hlen]; exact ⟨hpos, hn⟩, ?_, hfptr, hbase, ?_, hclean⟩
  · rw [hlen, hpick, hbytes, hfptr]
  · rw [hlen, ← hfptr]
    refine ⟨h.set _ _ _, h.toLinked, h.noErr, ?_, fun _ => ?_, fun hinside => ?_, fun _ => ?_⟩
    · change fp.fptr + n ≤ fp.fsize
      omega
    · have hbyte : (fp.fptr + n - 1) / 512 = fp.fptr / 512 := by omega
      change fp.clust = cs.getD ((fp.fptr + n - 1) / 512 / g.csize) 0
      rw [hbyte]
      exact h.clust
    · have hbyte : (fp.fptr + n) / 512 = fp.fptr / 512 := by
        change (fp.fptr + n) % 512 ≠ 0 at hinside
        omega
      change fp.dsect = fileSect g cs ((fp.fptr + n) / 512)
      rw [hbyte]
      exact h.dsect
    · exact ⟨⟨_, hhas, h.dsect⟩, h.buf⟩

theorem Placed.direct (h : Placed g w fs dev fp cs) (hg : g.Sound)
    (hlinked : Linked g w fp.toFilBase cs) (hnoErr : fp.err = .ok)
    (hbuf : fp.dsect ≠ 0 →
      (∃ q, FileHas g cs q ∧ fp.dsect = fileSect g cs q) ∧ fp.buf = w fp.dsect)
    (hclust : fp.clust = cs.getD (q / g.csize) 0) (hptr : fp.fptr = q * 512) (hq : FileHas g cs q)
    {cc : Nat} (hcc : cc = 1) (hclip : q % g.csize + cc ≤ g.csize) (hbtr : cc * 512 ≤ btr)
    (hleft : fp.fptr + btr ≤ fp.fsize)
    (hbase : fp.toFilBase = fp'.toFilBase) (hfptr : fp.fptr = fp'.fptr)
    (hclean : Rests fs' fp'.dirty fs fp.dirty) :
    EnsuresElse deviceStep (readDirect fp (fileSect g cs q) cc) fs dev (Passed g w fs' fp' cs btr)
      (Aborted g w fp' cs) := by
  simp only [readDirect, ensuresElse_bind, ensuresElse_lift, ensures_request, ensuresElse_ite,
    ensuresElse_pure]
  refine ⟨⟨_, _, dev.serve_step _⟩, ?_⟩
  rintro ⟨res, data⟩ dev₁ hstep
  obtain ⟨rfl, hdata⟩ := deviceStep_answers hstep
  refine ⟨fun _ => h.abort hbase hfptr, fun hres => ?_⟩
  have hread : ∀ i : Fin cc, data.get i = dev₁.sectors (fileSect g cs q + i) := by
    rintro ⟨i, hi⟩
    obtain rfl : i = 0 := by omega
    rw [hdata (by simpa using hres) hi, blockFor_of_lt (h.data hg hq).high]
    rfl
  rw [← fileBytes_sectors _ (h.patched hg hq hclip hread)]
  refine ⟨by rw [length_fileBytes]; omega, ?_, hfptr, hbase, ?_, hclean⟩
  · rw [length_fileBytes, ← hfptr, hptr]
  · rw [length_fileBytes, ← hfptr]
    refine ⟨h.set _ _ _, hlinked, hnoErr, ?_, fun _ => ?_, fun hno => ?_, hbuf⟩
    · change fp.fptr + cc * 512 ≤ fp.fsize
      omega
    · change fp.clust = cs.getD ((fp.fptr + cc * 512 - 1) / 512 / g.csize) 0
      rw [hptr, last_div (by omega) hclip]
      exact hclust
    · change (fp.fptr + cc * 512) % 512 ≠ 0 at hno
      omega

theorem ensuresElse_readPass (hg : g.Sound) (h : Opened g w fs dev fp cs) (hbtr : 0 < btr)
    (hone : btr ≤ 512) (hleft : fp.fptr + btr ≤ fp.fsize) :
    EnsuresElse deviceStep (readPass fp btr) fs dev (Passed g w fs fp cs btr)
      (Aborted g w fp cs) := by
  obtain ⟨v, hshows, -⟩ := h.shows
  have hgeom := hshows.geometry
  simp only [readPass, ensuresElse_ite, ensuresElse_bind, ensuresElse_get, ensuresElse_pure, hgeom,
    hg.and_mask]
  refine ⟨fun hstart => ?_, fun hinside => (h.ready hg hinside).pick hbtr hleft rfl rfl
    (.refl fs fp.dirty)⟩
  obtain ⟨q, hptr⟩ : ∃ q, fp.fptr = q * 512 := ⟨fp.fptr / 512, by omega⟩
  have hindex : fp.fptr / 512 = q := by omega
  have hq : FileHas g cs q := hindex ▸ h.has (by omega)
  obtain ⟨hnonzero, hsect⟩ := clust2sect_fileSect hg h.clusters hq
  rw [hindex]
  apply (ensuresElse_readCluster hg h hptr hq).mono
  · rintro _ fs₁ dev₁ ⟨hplaced, rfl, hclean⟩
    have hstill : Rests fs fp.dirty fs₁ fp.dirty := ⟨hclean, id⟩
    rw [hsect]
    refine ⟨fun hno => absurd hno hnonzero, fun _ => ⟨fun hdirect => ?_, fun hpart => ?_⟩⟩
    · -- clip at the cluster boundary
      have hrem : q % g.csize < g.csize := Nat.mod_lt _ hg.csize_pos
      generalize hcc : (if g.csize < q % g.csize + btr / 512 then g.csize - q % g.csize
        else btr / 512) = cc
      have hclip : cc = 1 ∧ q % g.csize + cc ≤ g.csize ∧ cc * 512 ≤ btr := by
        rw [← hcc]
        split <;> omega
      exact hplaced.direct hg h.toLinked h.noErr h.buffer rfl hptr hq hclip.1 hclip.2.1 hclip.2.2
        hleft rfl rfl hstill
    · have hbuf : fp.dsect = fileSect g cs q → fp.buf = w (fileSect g cs q) := by
        intro hsame
        rw [← hsame]
        exact (h.buffer (hsame ▸ (h.data hg hq).pos hg)).2
      apply (ensuresElse_fillBuf hg hplaced hq hbuf).mono
      · rintro _ fs₂ dev₂ ⟨hplaced', ⟨dirty, rfl, hdirty⟩, rfl⟩
        rw [← hindex] at hplaced' ⊢
        exact Ready.pick ⟨hplaced', h.toLinked, h.noErr, rfl, rfl, rfl⟩ hbtr hleft rfl rfl
          ⟨hstill.window, hdirty⟩
      · exact fun e _ _ habort => ⟨habort.placed, habort.failed, habort.base, habort.fptr⟩
  · exact fun _ _ _ habort => habort

/-- What `f_read` comes to: the bytes asked for, or fewer and an error. In no case is what the
volume shows another. -/
structure HasRead (g : Geometry) (w : Sectors) (fs : Fatfs) (fp : Fil) (cs : List Nat) (btr : Nat)
    (done : Bytes) (r : FResult × Fil × Bytes) (fs' : Fatfs) (dev' : Device) : Prop where
  placed : Placed g w fs' dev' r.2.1 cs
  base : r.2.1.toFilBase = fp.toFilBase
  outcome : ∃ n, r.2.2 = done ++ fileBytes g cs w fp.fptr n ∧ r.2.1.fptr = fp.fptr + n ∧
    (r.1 = .ok ∧ n = btr ∧ Opened g w fs' dev' r.2.1 cs ∧ Rests fs fp.dirty fs' r.2.1.dirty ∨
      r.1 = .diskErr ∧ r.2.1.err = r.1 ∧ n < btr)

theorem ensures_readLoop (hg : g.Sound) (h : Opened g w fs dev fp cs) {fuel : Nat}
    (hfuel : btr < fuel) (hone : btr ≤ 512) (hleft : fp.fptr + btr ≤ fp.fsize) (done : Bytes) :
    Ensures deviceStep (readLoop fuel fp btr done) fs dev (HasRead g w fs fp cs btr done) := by
  induction fuel generalizing fs dev fp btr done with
  | zero => omega
  | succ fuel ih =>
    simp only [readLoop, ensures_ite, ensures_bind, ensures_pure]
    refine ⟨fun hend => ?_, fun hmore => ?_⟩
    · subst hend
      exact ⟨h.toPlaced, rfl, 0, by simp [fileBytes_zero], rfl,
        .inl ⟨rfl, rfl, h, .refl fs fp.dirty⟩⟩
    · apply Ensures.mono (ensuresElse_readPass hg h (by omega) hone hleft)
      rintro _ fs₁ dev₁ (⟨⟨fp₁, data⟩, rfl, hpass⟩ | ⟨⟨res, fp₁⟩, rfl, habort⟩)
      · obtain ⟨⟨hpos, hle⟩, hbytes, hfptr, hbase, hopened, hclean⟩ := hpass
        dsimp only at hpos hle hbytes hfptr hbase hopened hclean
        dsimp only
        generalize data.length = n at hpos hle hbytes hopened ⊢
        rw [hfptr]
        have hsize : fp₁.fsize = fp.fsize := congrArg FilBase.fsize hbase
        have hrest : fp.fptr + n + (btr - n) ≤ fp₁.fsize := by omega
        apply (ih hopened (by omega) (by omega) hrest (done ++ data)).mono
        rintro ⟨res, fp₂, data₂⟩ fs₂ dev₂ ⟨hplaced, hbase', k, hdata, hplace, houtcome⟩
        refine ⟨hplaced, hbase'.trans hbase, n + k, ?_, hplace.trans (Nat.add_assoc ..), ?_⟩
        · rw [fileBytes_add, ← hbytes, ← List.append_assoc]
          exact hdata
        · exact houtcome.imp (fun hok => ⟨hok.1, by omega, hok.2.2.1, hclean.trans hok.2.2.2⟩)
            fun herr => ⟨herr.1, herr.2.1, by omega⟩
      · exact (ensures_pure _).mpr ⟨habort.placed, habort.base, 0, by simp [fileBytes_zero],
          habort.fptr, .inr ⟨habort.failed.1, habort.failed.2, by omega⟩⟩

theorem Placed.validate (h : Placed g w fs dev fp cs) (hg : g.Sound) (hatt : fp.attached = true)
    {post : FResult → Fatfs → Device → Prop} :
    Ensures deviceStep (validate fp) fs dev post ↔ post .ok fs dev := by
  obtain ⟨v, hshows, -⟩ := h.shows
  have hgeom := hshows.geometry
  have hmounted : fs.fsType ≠ .unmounted := by
    rw [show fs.fsType = g.fsType from congrArg Geometry.fsType hgeom]
    exact hg.mounted
  have hid : fs.id = fp.id := by
    rw [h.id]
    exact congrArg Geometry.id hgeom
  have hvalid : ¬(fp.attached = false ∨ fs.fsType = .unmounted ∨ fs.id ≠ fp.id) := by
    simp [hatt, hmounted, hid]
  simp only [FtpServer.validate, ensures_bind, ensures_get, ensures_ite, hvalid, ensures_pure,
    false_imp_iff, true_and, not_false_eq_true, true_imp_iff]

/-- A request of at most a sector; of a longer one `disk_read` would transfer the first sector. -/
theorem ensures_fRead (hg : g.Sound) (h : Opened g w fs dev fp cs) (hatt : fp.attached = true)
    (hread : fp.read = true) {btr : Nat} (hone : btr ≤ 512) :
    Ensures deviceStep (fp.fRead btr) fs dev
      (HasRead g w fs fp cs (min btr (fp.fsize - fp.fptr)) []) := by
  have hfptr := h.fptr
  have hsmall := h.small
  have hremain : u32 (fp.fsize + 2 ^ 32 - fp.fptr) = fp.fsize - fp.fptr := by
    unfold u32
    omega
  have hclip : (if fp.fsize - fp.fptr < btr then fp.fsize - fp.fptr else btr) =
      min btr (fp.fsize - fp.fptr) := by
    split <;> omega
  simp only [Fil.fRead, ensures_bind, h.validate hg hatt, ensures_ite, h.noErr, hread, hremain,
    hclip, ne_eq, not_true_eq_false, false_imp_iff, true_and, not_false_eq_true, true_imp_iff,
    Bool.true_eq_false]
  exact ensures_readLoop hg h (Nat.lt_succ_self _) (by omega) (by omega) []

end Loop

end FtpServer

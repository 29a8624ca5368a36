import FtpServer.Clusters
import Mathlib.Data.List.GetD

/-! Where the bytes of an open file are: the clusters of its chain one behind the other, and one
sector of them perhaps in the buffer of the file object. -/

namespace FtpServer
open Interaction CString

/-- The part of a `FIL` that reading leaves as it is. `flag` holds the bits on their own, and
`attached` says that `fs` is not null. -/
structure FilBase where
  attached : Bool
  id : Nat
  read : Bool
  write : Bool
  written : Bool
  fsize : Nat
  sclust : Nat
  dirSect : Nat
  dirPtr : Nat

structure Fil extends FilBase where
  dirty : Bool
  err : FResult
  fptr : Nat
  clust : Nat
  dsect : Nat
  buf : Sector

section Source

/-- The test that every call starts with; `disk_status` is always 0. -/
def validate (fp : Fil) : FatFs FResult := do
  let fs ← get
  if fp.attached = false ∨ fs.fsType = .unmounted ∨ fs.id ≠ fp.id then pure .invalidObject
  else pure .ok

def clust2sect (g : Geometry) (clst : Nat) : Nat :=
  let clst := u32 (clst + 2 ^ 32 - 2)
  if u32 (g.nFatent + 2 ^ 32 - 2) ≤ clst then 0 else u32 (clst * g.csize + g.database)

end Source

section Layout
variable {g : Geometry} {v : Sectors} {t : Nat → Nat} {first c q : Nat} {cs : List Nat}

def clusterSect (g : Geometry) (c r : Nat) : Nat := g.database + (c - 2) * g.csize + r

def fileSect (g : Geometry) (cs : List Nat) (q : Nat) : Nat :=
  clusterSect g (cs.getD (q / g.csize) 0) (q % g.csize)

def fileByte (g : Geometry) (cs : List Nat) (v : Sectors) (i : Nat) : UInt8 :=
  (v (fileSect g cs (i / 512))).get (i % 512)

def fileBytes (g : Geometry) (cs : List Nat) (v : Sectors) (off n : Nat) : Bytes :=
  (List.range n).map fun i => fileByte g cs v (off + i)

theorem Geometry.Sound.csize_pos (hg : g.Sound) : 0 < g.csize := by
  obtain ⟨k, -, hk⟩ := hg.cluster
  rw [hk]
  exact Nat.two_pow_pos k

theorem Geometry.Sound.and_mask (hg : g.Sound) (q : Nat) : q &&& (g.csize - 1) = q % g.csize := by
  obtain ⟨k, -, hk⟩ := hg.cluster
  rw [hk, Nat.and_two_pow_sub_one_eq_mod]

theorem clusterSect_lt (hc : g.Cluster c) {r : Nat}
    (hr : r < g.csize) : clusterSect g c r < g.database + (g.nFatent - 2) * g.csize := by
  have hnext : (c - 2 + 1) * g.csize ≤ (g.nFatent - 2) * g.csize := by
    have hlow := hc.1
    have hhigh := hc.2
    exact Nat.mul_le_mul_right _ (by omega)
  rw [Nat.add_mul, Nat.one_mul] at hnext
  unfold clusterSect
  omega

theorem clust2sect_eq (hg : g.Sound) (hc : g.Cluster c) : clust2sect g c = clusterSect g c 0 := by
  have hlow := hc.1
  have hhigh := hc.2
  have hlt := hg.nFatent_lt
  have hsect := clusterSect_lt hc hg.csize_pos
  have hfits := hg.clusters
  unfold clusterSect at hsect ⊢
  have hsub : u32 (c + 2 ^ 32 - 2) = c - 2 := by
    unfold u32
    omega
  have hsub' : u32 (g.nFatent + 2 ^ 32 - 2) = g.nFatent - 2 := by
    unfold u32
    omega
  rw [clust2sect, hsub, hsub', if_neg (by omega), u32]
  have hsum : (c - 2) * g.csize + g.database < 2 ^ 32 := by omega
  rw [Nat.mod_eq_of_lt hsum]
  omega

/-- The sectors of the data area: behind all copies of the FAT, and never in one of them. -/
structure Geometry.Data (g : Geometry) (n : Nat) : Prop where
  low : g.fatbase + g.nFats * g.fsize ≤ n
  high : n < 2 ^ 23

theorem Geometry.Sound.data_cluster (hg : g.Sound) (hc : g.Cluster c) {r : Nat}
    (hr : r < g.csize) : g.Data (clusterSect g c r) := by
  have hsect := clusterSect_lt hc hr
  have hfits := hg.clusters
  have hfats := hg.fats
  refine ⟨?_, by omega⟩
  unfold clusterSect
  omega

theorem Geometry.Data.primary {n : Nat} (h : g.Data n) (hg : g.Sound) : g.Primary n := by
  have hlow := h.low
  have hhigh := h.high
  refine ⟨hhigh, by omega, fun hfat32 => ?_⟩
  have hinfo := hg.info hfat32
  omega

theorem Geometry.Data.pos {n : Nat} (h : g.Data n) (hg : g.Sound) : n ≠ 0 := by
  have hlow := h.low
  have htable := hg.table
  have hmarks := hg.nonempty
  have hone : g.fsize ≤ g.nFats * g.fsize := Nat.le_mul_of_pos_left _ hg.copies
  have hbytes : 0 < tableBytes g := by
    have hmounted := hg.mounted
    unfold tableBytes
    cases htype : g.fsType with
    | unmounted => exact absurd htype hmounted
    | fat12 | fat16 | fat32 =>
      dsimp only
      omega
  omega

theorem Geometry.Data.not_inFat {n : Nat} (h : g.Data n) (hg : g.Sound) : ¬g.InFat n := by
  have hlow := h.low
  have hone : g.fsize ≤ g.nFats * g.fsize := Nat.le_mul_of_pos_left _ hg.copies
  intro hfat
  have hhigh := hfat.2
  omega

theorem clusterSect_inj {c' r r' : Nat} (hc : g.Cluster c) (hc' : g.Cluster c')
    (hr : r < g.csize) (hr' : r' < g.csize) (h : clusterSect g c r = clusterSect g c' r') :
    c = c' ∧ r = r' := by
  have hlow := hc.1
  have hlow' := hc'.1
  unfold clusterSect at h
  have hsum : (c - 2) * g.csize + r = (c' - 2) * g.csize + r' := by omega
  obtain ⟨hquot, hrem⟩ := copy_inj hr hr' hsum
  exact ⟨by omega, hrem⟩

end Layout

section Bytes
variable {g : Geometry} {v v' : Sectors} {t : Nat → Nat} {first q i n off : Nat} {cs : List Nat}

def FileHas (g : Geometry) (cs : List Nat) (q : Nat) : Prop := q < cs.length * g.csize

theorem FileHas.div_lt (h : FileHas g cs q) : q / g.csize < cs.length :=
  Nat.div_lt_of_lt_mul (by rw [Nat.mul_comm]; exact h)

theorem FileHas.cluster (hcs : ∀ c ∈ cs, g.Cluster c) (h : FileHas g cs q) :
    g.Cluster (cs.getD (q / g.csize) 0) := by
  have hlt := h.div_lt
  rw [List.getD_eq_getElem _ _ hlt]
  exact hcs _ (List.getElem_mem hlt)

theorem FileHas.data (hg : g.Sound) (hcs : ∀ c ∈ cs, g.Cluster c) (h : FileHas g cs q) :
    g.Data (fileSect g cs q) :=
  hg.data_cluster (h.cluster hcs) (Nat.mod_lt _ hg.csize_pos)

theorem FileHas.add (h : FileHas g cs q) (hi : q % g.csize + i < g.csize) :
    FileHas g cs (q + i) := by
  have hclust := Nat.mul_le_mul_right g.csize (Nat.succ_le_of_lt h.div_lt)
  have hsplit := Nat.div_add_mod q g.csize
  rw [Nat.succ_mul, Nat.mul_comm] at hclust
  unfold FileHas
  omega

theorem fileSect_inj (hg : g.Sound) (hcs : ∀ c ∈ cs, g.Cluster c) (hnodup : cs.Nodup) {q' : Nat}
    (h : FileHas g cs q) (h' : FileHas g cs q') (heq : fileSect g cs q = fileSect g cs q') :
    q = q' := by
  have hmod : ∀ q, q % g.csize < g.csize := fun q => Nat.mod_lt q hg.csize_pos
  obtain ⟨hclust, hrem⟩ :=
    clusterSect_inj (h.cluster hcs) (h'.cluster hcs) (hmod q) (hmod q') heq
  have hlt := h.div_lt
  have hlt' := h'.div_lt
  rw [List.getD_eq_getElem _ _ hlt, List.getD_eq_getElem _ _ hlt'] at hclust
  have hdiv := (List.Nodup.getElem_inj_iff hnodup).mp hclust
  rw [← Nat.div_add_mod q g.csize, ← Nat.div_add_mod q' g.csize, hdiv, hrem]

theorem fileSect_add (hg : g.Sound) (h : q % g.csize + i < g.csize) :
    fileSect g cs (q + i) = fileSect g cs q + i := by
  have hdiv : (q + i) / g.csize = q / g.csize := by
    rw [← Nat.div_add_mod q g.csize, Nat.add_assoc, Nat.mul_add_div hg.csize_pos,
      Nat.mul_add_div hg.csize_pos, Nat.div_eq_of_lt h,
      Nat.div_eq_of_lt (Nat.mod_lt _ hg.csize_pos)]
  have hmod : (q + i) % g.csize = q % g.csize + i := by
    rw [Nat.add_mod, Nat.mod_eq_of_lt (show i < g.csize by omega), Nat.mod_eq_of_lt h]
  rw [fileSect, fileSect, hdiv, hmod, clusterSect, clusterSect]
  omega

@[simp] theorem length_fileBytes : (fileBytes g cs v off n).length = n := by
  simp [fileBytes]

theorem fileBytes_zero : fileBytes g cs v off 0 = [] := rfl

theorem fileBytes_add (n' : Nat) : fileBytes g cs v off (n + n') =
    fileBytes g cs v off n ++ fileBytes g cs v (off + n) n' := by
  simp only [fileBytes, List.range_add, List.map_append, List.map_map]
  congr 1
  apply List.map_congr_left
  intro i _
  simp only [Function.comp, Nat.add_assoc]

theorem fileBytes_drop_take (h : off + n ≤ i) :
    ((fileBytes g cs v 0 i).drop off).take n = fileBytes g cs v off n := by
  have hsplit : i = off + (n + (i - off - n)) := by omega
  rw [hsplit, fileBytes_add, List.drop_left' (by simp), Nat.zero_add, fileBytes_add,
    List.take_left' (by simp)]

theorem fileBytes_congr (h : ∀ i < n, v' (fileSect g cs ((off + i) / 512)) =
    v (fileSect g cs ((off + i) / 512))) : fileBytes g cs v' off n = fileBytes g cs v off n := by
  apply List.map_congr_left
  intro i hi
  rw [fileByte, fileByte, h i (List.mem_range.mp hi)]

theorem fileBytes_slice {o : Nat} (h : o + n ≤ 512) :
    fileBytes g cs v (q * 512 + o) n = (v (fileSect g cs q)).slice o n := by
  have hlen := (v (fileSect g cs q)).length_bytes
  apply List.ext_getElem
  · simp only [length_fileBytes, Sector.slice, List.length_take, List.length_drop]
    omega
  · intro i hi hi'
    have hin : i < n := by simpa using hi
    have hsect : (q * 512 + o + i) / 512 = q := by omega
    have hbyte : (q * 512 + o + i) % 512 = o + i := by omega
    simp only [fileBytes, List.getElem_map, List.getElem_range, fileByte, hsect, hbyte,
      Sector.slice, List.getElem_take, List.getElem_drop, Sector.get]
    exact List.getD_eq_getElem _ _ (by omega)

theorem Sector.slice_all (s : Sector) : s.slice 0 512 = s.bytes := by
  rw [Sector.slice, List.drop_zero, List.take_of_length_le s.length_bytes.le]

theorem fileBytes_sectors {cc : Nat} (data : Vector Sector cc)
    (h : ∀ i : Fin cc, data.get i = v (fileSect g cs (q + i))) :
    fileBytes g cs v (q * 512) (cc * 512) = data.toList.flatMap Sector.bytes := by
  have hlist : data.toList = (List.range cc).map fun i => v (fileSect g cs (q + i)) := by
    apply List.ext_getElem
    · simp
    · intro i hi hi'
      have hin : i < cc := by simpa using hi
      have hget := h ⟨i, hin⟩
      simpa [Vector.get] using hget
  rw [hlist]
  clear h hlist data
  induction cc with
  | zero => rfl
  | succ cc ih =>
    have hsplit : (cc + 1) * 512 = cc * 512 + 512 := by omega
    have hplace : q * 512 + cc * 512 = (q + cc) * 512 + 0 := by omega
    rw [hsplit, fileBytes_add, ih, hplace, fileBytes_slice le_rfl, Sector.slice_all,
      List.range_succ, List.map_append, List.flatMap_append, List.map_singleton,
      List.flatMap_singleton]

end Bytes

section Positions
variable {g : Geometry} {t : Nat → Nat} {first k : Nat} {cs : List Nat}

theorem Chain.head (h : Chain g t first cs) (hcs : 0 < cs.length) : cs.getD 0 0 = first := by
  cases cs with
  | nil => cases hcs
  | cons c cs => exact (chain_cons.mp h).1.symm

theorem Chain.next (h : Chain g t first cs) (hk : k + 1 < cs.length) :
    t (cs.getD k 0) = cs.getD (k + 1) 0 := by
  induction cs generalizing first k with
  | nil => cases hk
  | cons c cs ih =>
    obtain ⟨rfl, -, -, hrest⟩ := chain_cons.mp h
    cases k with
    | zero => exact (hrest.head (by simpa using hk)).symm
    | succ k => exact ih hrest (by simpa using hk)

theorem Chain.next_or_last (h : Chain g t first cs) (hk : k < cs.length) :
    k + 1 < cs.length ∧ t (cs.getD k 0) = cs.getD (k + 1) 0 ∨
      k + 1 = cs.length ∧ (∃ init, cs = init ++ [cs.getD k 0]) ∧ g.nFatent ≤ t (cs.getD k 0) := by
  by_cases hmore : k + 1 < cs.length
  · exact .inl ⟨hmore, h.next hmore⟩
  · have hne : cs ≠ [] := List.ne_nil_of_length_pos (by omega)
    have hlast : cs.getD k 0 = cs.getLast hne := by
      rw [List.getD_eq_getElem _ _ hk, List.getLast_eq_getElem]
      congr 1
      omega
    have hsplit := List.dropLast_append_getLast hne
    rw [hlast]
    refine .inr ⟨by omega, ⟨_, hsplit.symm⟩, ?_⟩
    rw [← hsplit] at h
    exact h.last_end

theorem Chain.cluster (h : Chain g t first cs) : ∀ c ∈ cs, g.Cluster c :=
  fun _ hc => (h.used hc).1

end Positions

section Opened
variable {g : Geometry} {v v' w w' : Sectors} {fs fs' : Fatfs} {dev dev' : Device} {fp : Fil}
  {cs : List Nat} {q : Nat}

/-- The sectors of the volume with the buffer laid over them. -/
def Fil.over (fp : Fil) (v : Sectors) : Sectors :=
  if fp.dirty = true then Function.update v fp.dsect fp.buf else v

/-- A file object on the clusters `cs` of a volume that with its buffer shows `w`: what holds
also after an error. -/
structure Placed (g : Geometry) (w : Sectors) (fs : Fatfs) (dev : Device) (fp : Fil)
    (cs : List Nat) : Prop where
  shows : ∃ v, Presents g v fs dev ∧ fp.over v = w
  id : fp.id = g.id
  clusters : ∀ c ∈ cs, g.Cluster c
  nodup : cs.Nodup
  loaded : fp.dirty = true → ∃ q, FileHas g cs q ∧ fp.dsect = fileSect g cs q
  apart : ∀ q, FileHas g cs q → fs.winsect ≠ fileSect g cs q

/-- The clusters are a chain that the file object leads to, with room for its bytes. -/
structure Linked (g : Geometry) (w : Sectors) (fp : FilBase) (cs : List Nat) : Prop where
  chain : cs = [] ∧ fp.sclust = 0 ∨ g.Cluster fp.sclust ∧ Chain g (g.table w) fp.sclust cs
  size : fp.fsize ≤ cs.length * g.csize * 512
  small : fp.fsize < 2 ^ 32

structure Opened (g : Geometry) (w : Sectors) (fs : Fatfs) (dev : Device) (fp : Fil)
    (cs : List Nat) : Prop extends Placed g w fs dev fp cs, Linked g w fp.toFilBase cs where
  noErr : fp.err = .ok
  fptr : fp.fptr ≤ fp.fsize
  clust : fp.fptr ≠ 0 → fp.clust = cs.getD ((fp.fptr - 1) / 512 / g.csize) 0
  inBuf : fp.fptr % 512 ≠ 0 → fp.dsect = fileSect g cs (fp.fptr / 512)
  buffer : fp.dsect ≠ 0 →
    (∃ q, FileHas g cs q ∧ fp.dsect = fileSect g cs q) ∧ fp.buf = w fp.dsect

def Fil.content (fp : Fil) (g : Geometry) (cs : List Nat) (w : Sectors) : Bytes :=
  fileBytes g cs w 0 fp.fsize

def AtRest (fs : Fatfs) (fp : Fil) : Prop := fs.wflag = false ∧ fp.dirty = false

/-- A step that leaves nothing to be written back where nothing was before. -/
structure Rests (fs : Fatfs) (dirty : Bool) (fs' : Fatfs) (dirty' : Bool) : Prop where
  window : fs.wflag = false → fs'.wflag = false
  buffer : dirty = false → dirty' = false

theorem Rests.refl (fs : Fatfs) (dirty : Bool) : Rests fs dirty fs dirty := ⟨id, id⟩

theorem Rests.trans {fs₁ fs₂ fs₃ : Fatfs} {dirty₁ dirty₂ dirty₃ : Bool}
    (h : Rests fs₁ dirty₁ fs₂ dirty₂) (h' : Rests fs₂ dirty₂ fs₃ dirty₃) :
    Rests fs₁ dirty₁ fs₃ dirty₃ :=
  ⟨h'.window ∘ h.window, h'.buffer ∘ h.buffer⟩

theorem Placed.set (h : Placed g w fs dev fp cs) (err : FResult) (fptr clust : Nat) :
    Placed g w fs dev { fp with err := err, fptr := fptr, clust := clust } cs :=
  ⟨h.shows, h.id, h.clusters, h.nodup, h.loaded, h.apart⟩

theorem Placed.data (h : Placed g w fs dev fp cs) (hg : g.Sound) (hq : FileHas g cs q) :
    g.Data (fileSect g cs q) :=
  hq.data hg h.clusters

theorem Geometry.Near.apart (hg : g.Sound) (hnear : g.Near fs fs') {n : Nat} (hdata : g.Data n)
    (h : fs.winsect ≠ n) : fs'.winsect ≠ n := by
  rcases hnear with hsame | hfat | hnone
  · rwa [hsame]
  · rintro rfl
    exact hdata.not_inFat hg hfat
  · rintro rfl
    exact absurd hdata.high (by rw [hnone]; decide)

theorem table_congr (hg : g.Sound) (h : ∀ n, g.InFat n → w' n = w n) {c : Nat}
    (hc : c < g.nFatent) : g.table w' c = g.table w c := by
  have hbyte : ∀ k < tableBytes g, fatMemory g w' k = fatMemory g w k := by
    intro k hk
    have htable := hg.table
    rw [fatMemory, fatMemory, h _ ⟨by omega, by omega⟩]
  exact tableEntry_congr hc hbyte

theorem Presents.overwrite (h : Presents g v fs dev) (P : Nat → Prop) [DecidablePred P]
    (hdata : ∀ n, P n → g.Data n ∧ fs.winsect ≠ n)
    (hsame : ∀ n, ¬P n → dev'.sectors n = dev.sectors n ∧ dev'.failed n = dev.failed n) :
    Presents g (fun n => if P n then dev'.sectors n else v n) fs dev' where
  geometry := h.geometry
  win := by
    intro hprimary
    have hnot : ¬P fs.winsect := fun hin => (hdata _ hin).2 rfl
    rw [if_neg hnot]
    exact h.win hprimary
  device := by
    intro n hn hdirty
    by_cases hin : P n
    · rw [if_pos hin]
    · rw [if_neg hin, (hsame n hin).1]
      exact h.device n hn hdirty
  dirty := h.dirty
  mirrored := by
    have hout : ∀ n, n < g.fatbase + g.nFats * g.fsize → ¬P n := by
      intro n hn hin
      have hlow := (hdata n hin).1.low
      omega
    intro i hi j hj hfst hcopy
    have hlt := copy_lt hi hj
    have hlt' := copy_lt hi (j := 0) (by omega)
    obtain ⟨hsectors, hfailed⟩ := hsame _ (hout (g.fatbase + j * g.fsize + i) (by omega))
    obtain ⟨hsectors', hfailed'⟩ := hsame _ (hout (g.fatbase + i) (by omega))
    rw [hsectors, hsectors']
    exact h.mirrored i hi j hj (hfailed' ▸ hfst) (hfailed ▸ hcopy)

theorem Presents.put (h : Presents g v fs dev) {n : Nat} (hdata : g.Data n) (hwin : fs.winsect ≠ n)
    (data : Sector) (res : DResult) :
    Presents g (Function.update v n data) fs (dev.put n data res) := by
  have hsame : ∀ m, ¬m = n → (dev.put n data res).sectors m = dev.sectors m ∧
      (dev.put n data res).failed m = dev.failed m :=
    fun m hm => ⟨Device.put_sectors_of_ne hm, Device.put_failed_of_ne hm⟩
  have hput := h.overwrite (· = n) (fun m hm => hm ▸ ⟨hdata, hwin⟩) hsame
  convert hput using 1
  funext m
  by_cases hm : m = n
  · subst hm
    simp
  · simp [hm]

theorem Placed.over_of_not (h : Placed g w fs dev fp cs) {n : Nat}
    (hn : ∀ q, FileHas g cs q → n ≠ fileSect g cs q) : fp.over v n = v n := by
  unfold Fil.over
  split
  · rename_i hdirty
    obtain ⟨q, hq, hsect⟩ := h.loaded hdirty
    exact Function.update_of_ne (hsect ▸ hn q hq) _ _
  · rfl

theorem Placed.over_inFat (h : Placed g w fs dev fp cs) (hg : g.Sound) {n : Nat}
    (hn : g.InFat n) : fp.over v n = v n := by
  apply h.over_of_not
  rintro q hq rfl
  exact (h.data hg hq).not_inFat hg hn

theorem Fil.over_clean (h : fp.dirty = false) : fp.over v = v := by
  rw [Fil.over, h, if_neg Bool.false_ne_true]

theorem Placed.durable (h : Placed g w fs dev fp cs) (hclean : AtRest fs fp) {n : Nat}
    (hn : g.Primary n) : dev.sectors n = w n := by
  obtain ⟨v, hshows, rfl⟩ := h.shows
  rw [Fil.over_clean hclean.2]
  exact hshows.durable hclean.1 hn

theorem Fil.over_outside (hover : fp.over v = w) (hsame : ∀ n, ¬g.InFat n → v' n = v n) {n : Nat}
    (hn : ¬g.InFat n) : fp.over v' n = w n := by
  rw [← hover]
  unfold Fil.over
  split
  · simp only [Function.update_apply, hsame n hn]
  · exact hsame n hn

theorem Placed.table_over (h : Placed g w fs dev fp cs) (hg : g.Sound) {c : Nat}
    (hc : g.Cluster c) : g.table (fp.over v) c = g.table v c :=
  table_congr hg (fun _ hn => h.over_inFat hg hn) hc.2

end Opened

end FtpServer

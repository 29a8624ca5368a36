import FtpServer.Reading

/-! `f_write`: the file grows cluster by cluster, whole sectors go straight to the device, and
what is left over stays in the buffer. -/

namespace FtpServer
open Interaction CString Overlay

section Source

/-- The next cluster, on a cluster boundary: a new one behind the last. There is none when the
disk is full. -/
def writeCluster (fp : Fil) (csect : Nat) : FileOp (Option Fil) :=
  if csect = 0 then do
    let clst ← if fp.fptr = 0 then
        if fp.sclust = 0 then liftM (createChain 0) else pure fp.sclust
      else liftM (createChain fp.clust)
    if clst = 0 then pure none
    else if clst = 1 then abort .intErr fp
    else if clst = diskError then abort .diskErr fp
    else pure (some { fp with clust := clst, sclust := if fp.sclust = 0 then clst else fp.sclust })
  else pure (some fp)

def sectorAt (data : Bytes) (i : Nat) : Sector :=
  Sector.zero.store 0 ((data.drop (i * 512)).take 512)

def writeDirect (fp : Fil) (data : Bytes) (sect cc : Nat) : FileOp (Option (Fil × Nat)) := do
  let res ← liftM
    (request (DiskCall.write sect cc (Vector.ofFn fun i => sectorAt data i)) : FatFs _)
  if res ≠ .ok then abort .diskErr fp
  else
    let i := u32 (fp.dsect + 2 ^ 32 - sect)
    let fp := if i < cc then { fp with buf := sectorAt data i, dirty := false } else fp
    pure (some (fp, 512 * cc))

def putBuf (fp : Fil) (data : Bytes) : Fil × Nat :=
  let wcnt := 512 - fp.fptr % 512
  let wcnt := if data.length < wcnt then data.length else wcnt
  ({ fp with buf := fp.buf.store (fp.fptr % 512) (data.take wcnt), dirty := true }, wcnt)

def writePass (fp : Fil) (data : Bytes) : FileOp (Option (Fil × Nat)) :=
  if fp.fptr % 512 = 0 then do
    let fs ← get
    let csect := fp.fptr / 512 &&& (fs.csize - 1)
    match ← writeCluster fp csect with
    | none => pure none
    | some fp => do
      let fp ← flushBuf fp
      let sect := clust2sect fs.toGeometry fp.clust
      if sect = 0 then abort .intErr fp
      else do
        let sect := u32 (sect + csect)
        let cc := data.length / 512
        if cc ≠ 0 then
          writeDirect fp data sect (if fs.csize < csect + cc then fs.csize - csect else cc)
        else do
          -- at the growing edge there is nothing to be read
          let fp ← if fp.dsect ≠ sect ∧ fp.fptr < fp.fsize then loadBuf fp sect else pure fp
          pure (some (putBuf { fp with dsect := sect } data))
  else pure (some (putBuf fp data))

def Fil.grown (fp : Fil) : Fil :=
  { fp with fsize := if fp.fsize < fp.fptr then fp.fptr else fp.fsize }

def writeLoop : Nat → Fil → Bytes → Nat → FatFs (FResult × Fil × Nat)
  | 0, _, _, _ => stuck
  | fuel + 1, fp, data, bw =>
    if data = [] then pure (.ok, { fp.grown with written := true }, bw)
    else do
      match ← (writePass fp data).run with
      | .error (res, fp) => pure (res, fp, bw)
      | .ok none => pure (.ok, { fp.grown with written := true }, bw)
      | .ok (some (fp, wcnt)) =>
        writeLoop fuel { fp with fptr := fp.fptr + wcnt } (data.drop wcnt) (bw + wcnt)

def Fil.fWrite (fp : Fil) (data : Bytes) : FatFs (FResult × Fil × Nat) := do
  let res ← validate fp
  if res ≠ .ok then pure (res, fp, 0)
  else if fp.err ≠ .ok then pure (fp.err, fp, 0)
  else if fp.write = false then pure (.denied, fp, 0)
  else
    -- file size cannot reach 4GB
    let data := if u32 (fp.fptr + data.length) < fp.fptr then [] else data
    writeLoop (data.length + 1) fp data 0

end Source

section Extension
variable {g : Geometry} {w w' w'' : Sectors} {cs cs' cs'' : List Nat} {n q k cc : Nat}

/-- A sector that neither is in the clusters `cs` nor can get into a file on them: it is in no
cluster at all, or in one that another chain uses. -/
structure Elsewhere (g : Geometry) (w : Sectors) (cs : List Nat) (n : Nat) : Prop where
  outside : ¬g.InFat n
  used : ∀ c r, g.Cluster c → r < g.csize → n = clusterSect g c r → c ∉ cs ∧ g.table w c ≠ 0

/-- The file on `cs` has changed, and may have taken free clusters; all else is as it was. No
cluster becomes free. -/
structure Extends (g : Geometry) (w : Sectors) (cs : List Nat) (w' : Sectors) (cs' : List Nat) :
    Prop where
  old : cs <+: cs'
  fresh : ∀ c ∈ cs', c ∈ cs ∨ g.table w c = 0
  table : ∀ c, g.Cluster c → c ∉ cs → g.table w c ≠ 0 → g.table w' c = g.table w c
  sectors : ∀ n, Elsewhere g w cs n → w' n = w n
  used : ∀ c, g.Cluster c → g.table w c ≠ 0 → g.table w' c ≠ 0
  taken : ∀ c ∈ cs', c ∈ cs ∨ g.table w' c ≠ 0

theorem Extends.refl (w : Sectors) (cs : List Nat) : Extends g w cs w cs :=
  ⟨List.prefix_rfl, fun _ hc => .inl hc, fun _ _ _ _ => rfl, fun _ _ => rfl, fun _ _ => id,
    fun _ hc => .inl hc⟩

theorem Extends.elsewhere (h : Extends g w cs w' cs') (hn : Elsewhere g w cs n) :
    Elsewhere g w' cs' n := by
  refine ⟨hn.outside, fun c r hc hr hsect => ?_⟩
  obtain ⟨hnot, hused⟩ := hn.used c r hc hr hsect
  refine ⟨fun hmem => ?_, by rwa [h.table c hc hnot hused]⟩
  exact (h.fresh c hmem).elim hnot hused

theorem Extends.trans (h : Extends g w cs w' cs') (h' : Extends g w' cs' w'' cs'')
    (hkept : ∀ c ∈ cs'', g.Cluster c) : Extends g w cs w'' cs'' := by
  refine ⟨h.old.trans h'.old, fun c hc => ?_, fun c hc hnot hused => ?_, fun n hn => ?_,
    fun c hc => h'.used c hc ∘ h.used c hc, fun c hc => ?_⟩
  · by_contra hno
    obtain ⟨hnot, hused⟩ := not_or.mp hno
    have hsame := h.table c (hkept c hc) hnot hused
    rcases h'.fresh c hc with hmem | hfree
    · exact (h.fresh c hmem).elim hnot hused
    · exact hused (hsame ▸ hfree)
  · have hsame := h.table c hc hnot hused
    have hnot' : c ∉ cs' := fun hmem => (h.fresh c hmem).elim hnot hused
    exact (h'.table c hc hnot' (hsame ▸ hused)).trans hsame
  · exact (h'.sectors n (h.elsewhere hn)).trans (h.sectors n hn)
  · rcases h'.taken c hc with hmem | hused
    · exact (h.taken c hmem).imp_right (h'.used c (hkept c hc))
    · exact .inr hused

theorem Elsewhere.ne (h : Elsewhere g w cs n) (hg : g.Sound) (hcs : ∀ c ∈ cs, g.Cluster c)
    (hk : FileHas g cs k) : n ≠ fileSect g cs k := by
  intro heq
  have hlt := hk.div_lt
  have hmod : k % g.csize < g.csize := Nat.mod_lt _ hg.csize_pos
  refine (h.used _ _ (hk.cluster hcs) hmod heq).1 ?_
  rw [List.getD_eq_getElem _ _ hlt]
  exact List.getElem_mem hlt

theorem Extends.overwrite (h : Extends g w cs w' cs') (hg : g.Sound)
    (hcs : ∀ c ∈ cs', g.Cluster c)
    (hsame : ∀ n, (∀ k, FileHas g cs' k → n ≠ fileSect g cs' k) → w'' n = w' n) :
    Extends g w cs w'' cs' := by
  have htable : ∀ c, g.Cluster c → g.table w'' c = g.table w' c := by
    intro c hc
    apply table_congr hg _ hc.2
    intro n hn
    apply hsame
    rintro k hk rfl
    exact (hk.data hg hcs).not_inFat hg hn
  refine ⟨h.old, h.fresh, fun c hc hnot hused => ?_, fun n hn => ?_, fun c hc hused => ?_,
    fun c hc => ?_⟩
  · rw [htable c hc, h.table c hc hnot hused]
  · rw [hsame n fun k hk => (h.elsewhere hn).ne hg hcs hk]
    exact h.sectors n hn
  · rw [htable c hc]
    exact h.used c hc hused
  · rw [htable c (hcs c hc)]
    exact h.taken c hc

theorem fileSect_old (hold : cs <+: cs') (hk : FileHas g cs k) :
    FileHas g cs' k ∧ fileSect g cs' k = fileSect g cs k := by
  have hlt := hk.div_lt
  have hlen := hold.length_le
  refine ⟨?_, ?_⟩
  · unfold FileHas at hk ⊢
    exact hk.trans_le (Nat.mul_le_mul_right _ hlen)
  · rw [fileSect, fileSect, List.getD_eq_getElem _ _ hlt, List.getD_eq_getElem _ _ (by omega),
      hold.getElem]

theorem fileSect_range (hg : g.Sound) (hcs : ∀ c ∈ cs, g.Cluster c) (hnodup : cs.Nodup)
    (hq : FileHas g cs q) (hcc : q % g.csize + cc ≤ g.csize) (hk : FileHas g cs k) :
    fileSect g cs q ≤ fileSect g cs k ∧ fileSect g cs k < fileSect g cs q + cc ↔
      q ≤ k ∧ k < q + cc := by
  constructor
  · rintro ⟨hlow, hhigh⟩
    have hplace : fileSect g cs (q + (fileSect g cs k - fileSect g cs q)) = fileSect g cs k := by
      rw [fileSect_add hg (by omega)]
      omega
    have hindex := fileSect_inj hg hcs hnodup (hq.add (by omega)) hk hplace
    omega
  · rintro ⟨hlow, hhigh⟩
    obtain ⟨i, rfl⟩ := Nat.exists_eq_add_of_le hlow
    rw [fileSect_add hg (by omega)]
    omega

end Extension

section Growth
variable {g : Geometry} {v v' w w' : Sectors} {fs fs' : Fatfs} {dev dev' : Device} {fp fp' : Fil}
  {cs cs' : List Nat} {q r clst : Nat}

/-- Between the steps of `f_write` and `f_lseek`: the length is not yet what the position asks
for, and the cluster not yet that of the position. -/
structure Steady (g : Geometry) (w : Sectors) (fs : Fatfs) (dev : Device) (fp : Fil)
    (cs : List Nat) : Prop extends Placed g w fs dev fp cs, Linked g w fp.grown.toFilBase cs where
  noErr : fp.err = .ok
  buffer : fp.dsect ≠ 0 →
    (∃ q, FileHas g cs q ∧ fp.dsect = fileSect g cs q) ∧ fp.buf = w fp.dsect

structure Arrived (g : Geometry) (w : Sectors) (fs : Fatfs) (dev : Device) (fp : Fil)
    (cs : List Nat) (q : Nat) : Prop extends Steady g w fs dev fp cs where
  has : FileHas g cs q
  clust : fp.clust = cs.getD (q / g.csize) 0

theorem Placed.grown : Placed g w fs dev fp.grown cs ↔ Placed g w fs dev fp cs :=
  ⟨fun h => ⟨h.shows, h.id, h.clusters, h.nodup, h.loaded, h.apart⟩,
    fun h => ⟨h.shows, h.id, h.clusters, h.nodup, h.loaded, h.apart⟩⟩

theorem Opened.steady (h : Opened g w fs dev fp.grown cs) : Steady g w fs dev fp cs :=
  ⟨Placed.grown.mp h.toPlaced, h.toLinked, h.noErr, h.buffer⟩

theorem Placed.createdExtends (h : Placed g w fs dev fp cs) (hg : g.Sound) (hover : fp.over v = w)
    (hcreated : Created g v v' fs clst r fs' dev') (hclst : clst = 0 ∨ clst ∈ cs) :
    Extends g w cs (fp.over v') cs := by
  refine ⟨List.prefix_rfl, fun _ hc => .inl hc, fun c hc hnot hused => ?_, fun n hn => ?_,
    fun c hc hused => ?_, fun _ hc => .inl hc⟩
  · rw [← hover, h.table_over hg hc] at hused ⊢
    rw [h.table_over hg hc]
    refine hcreated.kept c ?_ hused
    rintro rfl
    exact hclst.elim (fun hzero => absurd hc.1 (by omega)) hnot
  · exact Fil.over_outside hover hcreated.outside hn.outside
  · rw [← hover, h.table_over hg hc] at hused
    rw [h.table_over hg hc]
    exact hcreated.used c hused

theorem Placed.stretched (h : Placed g w fs dev fp cs) (hg : g.Sound) {w' : Sectors}
    (hshows : ∃ v', Presents g v' fs' dev' ∧ fp.over v' = w') (hr : g.Cluster r) (hnew : r ∉ cs)
    (hwin : g.InFat fs'.winsect) (clust sclust : Nat) :
    Placed g w' fs' dev' { fp with clust := clust, sclust := sclust } (cs ++ [r]) := by
  have hclusters : ∀ c ∈ cs ++ [r], g.Cluster c := by
    simp only [List.forall_mem_append, List.forall_mem_singleton]
    exact ⟨h.clusters, hr⟩
  refine ⟨hshows, h.id, hclusters, ?_, fun hdirty => ?_, fun q hq heq => ?_⟩
  · rw [List.nodup_append_comm]
    exact List.nodup_cons.mpr ⟨hnew, h.nodup⟩
  · obtain ⟨q, hq, hsect⟩ := h.loaded hdirty
    obtain ⟨hq', hsame⟩ := fileSect_old (cs.prefix_append [r]) hq
    exact ⟨q, hq', hsect.trans hsame.symm⟩
  · exact (hq.data hg hclusters).not_inFat hg (heq ▸ hwin)

def Full (g : Geometry) (w : Sectors) : Prop := ∀ c, g.Cluster c → g.table w c ≠ 0

instance (g : Geometry) (w : Sectors) : Decidable (Full g w) :=
  decidable_of_iff (∀ c < g.nFatent, 2 ≤ c → g.table w c ≠ 0)
    ⟨fun h c hc => h c hc.2 hc.1, fun h c hlt hle => h c ⟨hle, hlt⟩⟩

/-- An entry of the FAT has the value that no cluster and no mark has. -/
def Reserved (g : Geometry) (w : Sectors) : Prop := ∃ c, g.Cluster c ∧ g.table w c = 1

instance (g : Geometry) (w : Sectors) : Decidable (Reserved g w) :=
  decidable_of_iff (∃ c < g.nFatent, 2 ≤ c ∧ g.table w c = 1)
    ⟨fun ⟨c, hlt, hle, hone⟩ => ⟨c, ⟨hle, hlt⟩, hone⟩, fun ⟨c, hc, hone⟩ => ⟨c, hc.2, hc.1, hone⟩⟩

def Fatal (g : Geometry) (w : Sectors) (res : FResult) : Prop :=
  res = .diskErr ∨ res = .intErr ∧ Reserved g w

/-- The number that `create_chain`, or the file object, gives for the cluster of sector `q`: none
at the end of a file on a full disk. If it had been there before, nothing has changed. -/
def Obtained (g : Geometry) (w : Sectors) (fs : Fatfs) (fp : Fil) (cs : List Nat) (q clst : Nat)
    (fs' : Fatfs) (dev' : Device) : Prop :=
  clst = 0 ∧ Placed g w fs' dev' fp cs ∧ (Full g w ∧ q = cs.length * g.csize) ∧
    (fs.wflag = false → fs'.wflag = false) ∨
  g.Cluster clst ∧ (∃ w' cs', Arrived g w' fs' dev'
      { fp with clust := clst, sclust := if fp.sclust = 0 then clst else fp.sclust } cs' q ∧
    Extends g w cs w' cs' ∧ (∀ n, ¬g.InFat n → w' n = w n) ∧
    (FileHas g cs q → w' = w ∧ cs' = cs ∧ (fs.wflag = false → fs'.wflag = false))) ∨
  ∃ w', (clst = 1 ∧ Reserved g w' ∨ clst = diskError) ∧ Placed g w' fs' dev' fp cs ∧
    Extends g w cs w' cs

theorem Steady.obtained (h : Steady g w fs dev fp cs) (hq : FileHas g cs q)
    (hplaced : Placed g w fs' dev' fp cs) (hclst : clst = cs.getD (q / g.csize) 0)
    (hclean : fs.wflag = false → fs'.wflag = false) : Obtained g w fs fp cs q clst fs' dev' := by
  have hcluster : g.Cluster clst := hclst ▸ hq.cluster h.clusters
  have hstart : fp.sclust ≠ 0 := by
    rcases h.chain with ⟨rfl, -⟩ | ⟨hfirst, -⟩
    · cases hq.div_lt
    · have hlow : 2 ≤ fp.sclust := hfirst.1
      omega
  refine .inr (.inl ⟨hcluster, w, cs, ?_, .refl w cs, fun _ _ => rfl, fun _ => ⟨rfl, rfl, hclean⟩⟩)
  rw [if_neg hstart]
  exact ⟨⟨⟨hplaced.shows, hplaced.id, hplaced.clusters, hplaced.nodup,
    hplaced.loaded, hplaced.apart⟩, h.toLinked, h.noErr, h.buffer⟩, hq, hclst⟩

def StartsFrom (g : Geometry) (cs : List Nat) (q c : Nat) : Prop :=
  c = 0 ∧ cs = [] ∧ q = 0 ∨
    g.Cluster c ∧ ∃ k, q = (k + 1) * g.csize ∧ k < cs.length ∧ c = cs.getD k 0

theorem StartsFrom.mem {c : Nat} (h : StartsFrom g cs q c) : c = 0 ∨ c ∈ cs := by
  rcases h with ⟨hzero, -⟩ | ⟨-, k, -, hk, rfl⟩
  · exact .inl hzero
  · rw [List.getD_eq_getElem _ _ hk]
    exact .inr (List.getElem_mem hk)

theorem StartsFrom.last {c first : Nat} {t : Nat → Nat} (h : StartsFrom g cs q c)
    (hcs : ∀ c ∈ cs, g.Cluster c) (hchain : cs = [] ∨ Chain g t first cs)
    (hend : c ≠ 0 → g.nFatent ≤ t c) :
    q = cs.length * g.csize ∧ (c = 0 ∧ cs = [] ∨ ∃ init, cs = init ++ [c]) := by
  rcases h with ⟨rfl, rfl, rfl⟩ | ⟨hc, k, rfl, hk, rfl⟩
  · exact ⟨by simp, .inl ⟨rfl, rfl⟩⟩
  · have hchain' := hchain.resolve_left (List.ne_nil_of_length_pos (by omega))
    rcases hchain'.next_or_last hk with ⟨hmore, hnext⟩ | ⟨hlast, hsplit, -⟩
    · have hlow := hc.1
      have hhigh := (hcs _ (List.getElem_mem hmore)).2
      rw [← List.getD_eq_getElem _ 0 hmore, ← hnext] at hhigh
      exact absurd hhigh (not_lt.mpr (hend (by omega)))
    · exact ⟨by rw [hlast], .inr hsplit⟩

theorem StartsFrom.next {c first : Nat} {t : Nat → Nat} (h : StartsFrom g cs q c)
    (hc : g.Cluster c) (hchain : cs = [] ∨ Chain g t first cs) (hnext : g.Cluster (t c))
    (hpos : 0 < g.csize) : FileHas g cs q ∧ t c = cs.getD (q / g.csize) 0 := by
  rcases h with ⟨rfl, -⟩ | ⟨-, k, rfl, hk, rfl⟩
  · exact absurd hc.1 (by decide)
  · have hchain' := hchain.resolve_left (List.ne_nil_of_length_pos (by omega))
    rcases hchain'.next_or_last hk with ⟨hmore, hnext'⟩ | ⟨-, -, hend⟩
    · rw [Nat.mul_div_cancel _ hpos]
      exact ⟨Nat.mul_lt_mul_of_pos_right hmore hpos, hnext'⟩
    · exact absurd hnext.2 (not_lt.mpr hend)

theorem StartsFrom.ne_reserved {c first : Nat} (h : StartsFrom g cs q c)
    (hcs : ∀ c ∈ cs, g.Cluster c) (hsome : 3 ≤ g.nFatent)
    (hchain : cs = [] ∨ Chain g (g.table v) first cs) (hpos : c ≠ 0) :
    ¬fatValue g (fatMemory g v) c < 2 := by
  rcases h with ⟨hzero, -⟩ | ⟨hc, k, -, hk, rfl⟩
  · exact absurd hzero hpos
  · have hchain' := hchain.resolve_left (List.ne_nil_of_length_pos (by omega))
    rw [fatValue_of_cluster hc]
    rcases hchain'.next_or_last hk with ⟨hmore, hnext⟩ | ⟨-, -, hend⟩
    · have hlow := (hcs _ (List.getElem_mem hmore)).1
      rw [← List.getD_eq_getElem _ 0 hmore, ← hnext] at hlow
      omega
    · omega

theorem chain_grow {t : Nat → Nat} {first c mark : Nat}
    (hlast : c = 0 ∧ cs = [] ∨ ∃ init, cs = init ++ [c])
    (hchain : cs = [] ∧ first = 0 ∨ g.Cluster first ∧ Chain g t first cs) (hr : g.Cluster r)
    (hfree : t r = 0) (hmark : g.nFatent ≤ mark) :
    g.Cluster (if first = 0 then r else first) ∧
      Chain g ((if c = 0 then id else fun t => Function.update t c r) (Function.update t r mark))
        (if first = 0 then r else first) (cs ++ [r]) := by
  rcases hlast with ⟨rfl, rfl⟩ | ⟨init, rfl⟩
  · have hnone : first = 0 := by
      rcases hchain with ⟨-, hnone⟩ | ⟨hfirst, hempty⟩
      · exact hnone
      · exact absurd hfirst.2 (not_lt.mpr (chain_nil.mp hempty))
    rw [if_pos hnone, if_pos rfl]
    exact ⟨hr, chain_single hr hmark⟩
  · obtain ⟨hfirst, hchain⟩ := hchain.resolve_left (by simp)
    have hlow := hfirst.1
    have hlow' := (hchain.used (k := c) (by simp)).1.1
    rw [if_neg (by omega), if_neg (by omega), List.append_assoc]
    exact ⟨hfirst, hchain.extend hr hfree hmark⟩

theorem Steady.created (h : Steady g w fs dev fp cs) (hg : g.Sound) {c : Nat}
    (hover : fp.over v = w) (hc : StartsFrom g cs q c)
    (hcreated : Created g v v' fs c r fs' dev') : Obtained g w fs fp cs q r fs' dev' := by
  have hplaced := h.toPlaced
  have htable : ∀ c, g.Cluster c → g.table w c = g.table v c := by
    intro c hcluster
    rw [← hover, hplaced.table_over hg hcluster]
  have hstart : cs = [] ∧ fp.sclust = 0 ∨
      g.Cluster fp.sclust ∧ Chain g (g.table v) fp.sclust cs :=
    h.chain.imp_right fun hfirst =>
      ⟨hfirst.1, hfirst.2.frame fun k hk => (htable k (h.clusters k hk)).symm⟩
  have hchain : cs = [] ∨ Chain g (g.table v) fp.sclust cs := hstart.imp And.left And.right
  have hstill : v' = v → Placed g w fs' dev' fp cs := by
    rintro rfl
    exact hover ▸ hplaced.near hg hcreated.shows hcreated.near
  have hkept := hplaced.createdExtends hg hover hcreated hc.mem
  have hbad : r = diskError → Obtained g w fs fp cs q r fs' dev' := fun hr =>
    .inr (.inr ⟨_, .inr hr, hplaced.near hg hcreated.shows hcreated.near, hkept⟩)
  rcases hcreated.outcome with ⟨hr, hfree, hwin, hlink, hput, -, -⟩ |
    ⟨hcluster, rfl, hr, hsame, -⟩ |
    ⟨rfl, ⟨hfull, hend⟩, hsame, -⟩ | ⟨rfl, hreserved, hsame, -⟩ | ⟨hr, -⟩
  · -- the new cluster becomes the last
    obtain ⟨hq, hlast⟩ := hc.last h.clusters hchain fun hpos => (hlink hpos).2
    have hnew : r ∉ cs := by
      intro hmem
      have hused := (hchain.resolve_left (List.ne_nil_of_mem hmem)).used hmem
      exact hused.2 hfree
    have hlen : cs.length < (cs ++ [r]).length := by simp
    refine .inr (.inl ⟨hr, fp.over v', cs ++ [r], ?_, ?_, fun n hn =>
      Fil.over_outside hover hcreated.outside hn, fun hhas => ?_⟩)
    · obtain ⟨hfirst, hgrow⟩ := chain_grow hlast hstart hr hfree hg.marks
      rw [← hput] at hgrow
      have hstretched := hplaced.stretched hg ⟨v', hcreated.shows, rfl⟩ hr hnew hwin r
        (if fp.sclust = 0 then r else fp.sclust)
      have hmore : cs.length * g.csize < (cs ++ [r]).length * g.csize :=
        Nat.mul_lt_mul_of_pos_right hlen hg.csize_pos
      have hchain' := hgrow.frame fun k hk => hstretched.table_over hg (hstretched.clusters k hk)
      refine ⟨⟨hstretched, ⟨.inr ⟨hfirst, hchain'⟩, ?_, h.small⟩, h.noErr, fun hdsect => ?_⟩,
        ?_, ?_⟩
      · exact h.size.trans (Nat.mul_le_mul_right _ hmore.le)
      · obtain ⟨⟨k, hk, hsect⟩, hbuf⟩ := h.buffer hdsect
        obtain ⟨hk', hsame⟩ := fileSect_old (cs.prefix_append [r]) hk
        refine ⟨⟨k, hk', hsect.trans hsame.symm⟩, hbuf.trans ?_⟩
        apply (Fil.over_outside hover hcreated.outside _).symm
        rw [hsect]
        exact (h.data hg hk).not_inFat hg
      · rw [hq]
        exact hmore
      · rw [hq, Nat.mul_div_cancel _ hg.csize_pos]
        simp
    · have hmark : g.table v' r ≠ 0 := by
        have hother : c ≠ 0 → r ≠ c := by
          rintro hpos rfl
          have hend := (hlink hpos).2
          rw [hfree] at hend
          have hsome := hg.nonempty
          omega
        have hend : g.table v' r = endMark g.fsType := by
          rw [hput]
          split
          · exact Function.update_self ..
          · exact (Function.update_of_ne (hother ‹_›) _ _).trans (Function.update_self ..)
        have hmarks := hg.marks
        have hhigh := hr.2
        omega
      refine ⟨cs.prefix_append [r], ?_, hkept.table, hkept.sectors, hkept.used, ?_⟩
      · simp only [List.mem_append, List.mem_singleton]
        rintro k (hk | rfl)
        · exact .inl hk
        · exact .inr ((htable _ hr).trans hfree)
      · simp only [List.mem_append, List.mem_singleton]
        rintro k (hk | rfl)
        · exact .inl hk
        · rw [hplaced.table_over hg hr]
          exact .inr hmark
    · exact absurd hhas (by rw [hq]; exact lt_irrefl _)
  · obtain ⟨hq, hnext⟩ := hc.next hcluster hchain hr hg.csize_pos
    have hused : g.table v (g.table v c) ≠ 0 := by
      have hmem := hq.div_lt
      rw [List.getD_eq_getElem _ _ hmem] at hnext
      rw [hnext]
      exact ((hchain.resolve_left (List.ne_nil_of_length_pos (Nat.zero_lt_of_lt hmem))).used
        (List.getElem_mem hmem)).2
    exact h.obtained hq (hstill hsame) hnext
      (hcreated.clean (hr.2.trans hg.nFatent_lt).ne fun _ => hused)
  · exact .inl ⟨rfl, hstill hsame,
      ⟨fun c hc => htable c hc ▸ hfull c hc, (hc.last h.clusters hchain hend).1⟩,
      hcreated.clean (by decide) fun hno => absurd hno.1 (by decide)⟩
  · obtain ⟨c', hc', hone⟩ := hreserved.resolve_right fun hno =>
      hc.ne_reserved h.clusters hg.nonempty hchain hno.1 hno.2
    exact .inr (.inr ⟨w, .inl ⟨rfl, c', hc', (htable c' hc').trans hone⟩, hstill hsame, .refl w cs⟩)
  · exact hbad hr

/-- An error of `f_write`, which can cost the file its last cluster but nobody else anything. -/
structure Spoilt (g : Geometry) (w : Sectors) (fp : Fil) (cs : List Nat) (e : FResult × Fil)
    (fs' : Fatfs) (dev' : Device) : Prop where
  placed : ∃ w' cs', Placed g w' fs' dev' e.2 cs' ∧ Extends g w cs w' cs' ∧ Fatal g w' e.1
  failed : e.2.err = e.1
  base : e.2.toFilBase = { fp.toFilBase with sclust := e.2.sclust }
  fptr : e.2.fptr = fp.fptr

theorem Placed.spoilt (h : Placed g w' fs' dev' fp' cs') (hext : Extends g w cs w' cs')
    (hbase : fp'.toFilBase = { fp.toFilBase with sclust := fp'.sclust })
    (hfptr : fp'.fptr = fp.fptr) {res : FResult} (hres : Fatal g w' res) {α : Type}
    {post : α → Fatfs → Device → Prop} :
    EnsuresElse deviceStep (FtpServer.abort res fp' : FileOp α) fs' dev' post
      (Spoilt g w fp cs) := by
  simp only [FtpServer.abort, ensuresElse_throw]
  exact ⟨⟨w', cs', h.set _ _ _, hext, hres⟩, rfl, hbase, hfptr⟩

def Went (g : Geometry) (w : Sectors) (fp : Fil) (cs : List Nat) (q : Nat) (r : Option Fil)
    (fs' : Fatfs) (dev' : Device) : Prop :=
  match r with
  | none => Placed g w fs' dev' fp cs ∧ Full g w
  | some fp' => ∃ clust sclust w' cs', fp' = { fp with clust := clust, sclust := sclust } ∧
      Arrived g w' fs' dev' fp' cs' q ∧ Extends g w cs w' cs' ∧ ∀ n, ¬g.InFat n → w' n = w n

theorem ensuresElse_writeCluster (hg : g.Sound) (h : Opened g w fs dev fp.grown cs)
    (hptr : fp.fptr = q * 512) :
    EnsuresElse deviceStep (writeCluster fp (q % g.csize)) fs dev (Went g w fp cs q)
      (Spoilt g w fp cs) := by
  have hsteady := h.steady
  have hplaced := hsteady.toPlaced
  have hroom : q ≤ cs.length * g.csize := by
    have hle := h.fptr.trans h.size
    change fp.fptr ≤ _ at hle
    omega
  obtain ⟨v, hshows, hover⟩ := hplaced.shows
  have htests : ∀ clst fs' dev', Obtained g w fs fp cs q clst fs' dev' →
      EnsuresElse deviceStep (if clst = 0 then pure none
        else if clst = 1 then abort .intErr fp
        else if clst = diskError then abort .diskErr fp
        else pure (some { fp with
          clust := clst, sclust := if fp.sclust = 0 then clst else fp.sclust }))
        fs' dev' (Went g w fp cs q) (Spoilt g w fp cs) := by
    rintro clst fs' dev'
      (⟨rfl, hsame, ⟨hfull, -⟩, -⟩ | ⟨hcluster, w', cs', harrived, hext, hsame, -⟩ |
      ⟨w', hbad, hplaced', hext⟩)
    · exact (ensuresElse_pure _).mpr ⟨hsame, hfull⟩
    · have hlow := hcluster.1
      have hhigh := hcluster.2
      have hend : g.nFatent < diskError := hg.nFatent_lt
      rw [if_neg (by omega), if_neg (by omega), if_neg (by omega), ensuresElse_pure]
      exact ⟨_, _, w', cs', rfl, harrived, hext, hsame⟩
    · rcases hbad with ⟨rfl, hreserved⟩ | rfl
      · exact hplaced'.spoilt hext rfl rfl (.inr ⟨rfl, hreserved⟩)
      · exact hplaced'.spoilt hext rfl rfl (.inl rfl)
  have hcreate : ∀ c, StartsFrom g cs q c → Ensures deviceStep (createChain c) fs dev
      (Obtained g w fs fp cs q) := by
    intro c hc
    apply (ensures_createChain hg hshows c).mono
    rintro r fs' dev' ⟨v', hcreated⟩
    exact hsteady.created hg hover hc hcreated
  simp only [writeCluster, ensuresElse_ite, ensuresElse_bind, ensuresElse_lift, ensuresElse_pure]
  simp only [ensuresElse_ite, ensuresElse_pure] at htests
  refine ⟨fun hstart => ⟨fun hzero => ⟨fun hnone => ?_, fun hsome => ?_⟩, fun hpos => ?_⟩,
    fun hinside => ?_⟩
  · have hempty : cs = [] := by
      rcases h.chain with ⟨hempty, -⟩ | ⟨hfirst, -⟩
      · exact hempty
      · have hlow : 2 ≤ fp.sclust := hfirst.1
        omega
    exact (hcreate 0 (.inl ⟨rfl, hempty, by omega⟩)).mono htests
  · obtain ⟨-, hchain⟩ := h.chain.resolve_left fun hno => hsome hno.2
    obtain rfl : q = 0 := by omega
    have hpos : 0 < cs.length := by
      rw [List.length_pos_iff]
      rintro rfl
      exact absurd ((h.chain.resolve_left fun hno => hsome hno.2).1.2)
        (not_lt.mpr (chain_nil.mp hchain))
    apply htests _ _ _ (hsteady.obtained (Nat.mul_pos hpos hg.csize_pos) hplaced _ id)
    rw [Nat.zero_div]
    exact (hchain.head hpos).symm
  · have hbefore := h.clust hpos
    change fp.clust = cs.getD ((fp.fptr - 1) / 512 / g.csize) 0 at hbefore
    rw [hptr, pred_div (by omega), if_pos hstart] at hbefore
    obtain ⟨k, rfl⟩ := Nat.dvd_of_mod_eq_zero hstart
    rw [Nat.mul_div_cancel_left _ hg.csize_pos] at hbefore
    have hk : k ≠ 0 := by
      rintro rfl
      omega
    have hlt : k - 1 < cs.length := by
      rw [Nat.mul_comm] at hroom
      have hle := Nat.le_of_mul_le_mul_right hroom hg.csize_pos
      omega
    refine (hcreate fp.clust (.inr ⟨?_, k - 1, ?_, hlt, hbefore⟩)).mono htests
    · rw [hbefore, List.getD_eq_getElem _ _ hlt]
      exact h.clusters _ (List.getElem_mem hlt)
    · rw [Nat.sub_add_cancel (by omega), Nat.mul_comm]
  · have hq : FileHas g cs q := by
      refine lt_of_le_of_ne hroom ?_
      rintro rfl
      exact hinside (Nat.mul_mod_left ..)
    have hpos : q ≠ 0 := by
      rintro rfl
      exact hinside (Nat.zero_mod _)
    have hbefore := h.clust (show fp.fptr ≠ 0 by omega)
    change fp.clust = cs.getD ((fp.fptr - 1) / 512 / g.csize) 0 at hbefore
    rw [hptr, pred_div hpos, if_neg hinside] at hbefore
    exact ⟨fp.clust, fp.sclust, w, cs, rfl,
      ⟨hsteady, hq, hbefore⟩, .refl w cs, fun _ _ => rfl⟩

end Growth

section Stores
variable {g : Geometry} {w w' w₁ w₂ : Sectors} {fs fs' : Fatfs} {dev dev' : Device} {fp fp' : Fil}
  {cs cs' : List Nat} {q k n cc : Nat} {data : Bytes}

def Sparing (g : Geometry) (w w' : Sectors) (cs : List Nat) (q cc : Nat) : Prop :=
  ∀ n, ¬(fileSect g cs q ≤ n ∧ n < fileSect g cs q + cc) → w' n = w n

theorem Sparing.others (h : Sparing g w w' cs q cc) (hg : g.Sound) (hq : FileHas g cs q)
    (hclip : q % g.csize + cc ≤ g.csize) (hn : ∀ k, FileHas g cs k → n ≠ fileSect g cs k) :
    w' n = w n := by
  apply h
  rintro ⟨hlow, hhigh⟩
  obtain ⟨i, rfl⟩ := Nat.exists_eq_add_of_le hlow
  exact hn (q + i) (hq.add (by omega)) (fileSect_add hg (by omega)).symm

theorem Sparing.table (h : Sparing g w w' cs q cc) (hg : g.Sound) (hcs : ∀ c ∈ cs, g.Cluster c)
    (hq : FileHas g cs q) (hclip : q % g.csize + cc ≤ g.csize) {c : Nat} (hc : g.Cluster c) :
    g.table w' c = g.table w c := by
  apply table_congr hg _ hc.2
  intro n hn
  apply h.others hg hq hclip
  rintro k hk rfl
  exact (hk.data hg hcs).not_inFat hg hn

theorem Linked.sparing {base : FilBase} (h : Linked g w base cs) (hspare : Sparing g w w' cs q cc)
    (hg : g.Sound) (hcs : ∀ c ∈ cs, g.Cluster c) (hq : FileHas g cs q)
    (hclip : q % g.csize + cc ≤ g.csize) : Linked g w' base cs :=
  ⟨h.chain.imp_right fun hchain => ⟨hchain.1, hchain.2.frame fun k hk =>
    hspare.table hg hcs hq hclip (hcs k hk)⟩, h.size, h.small⟩

theorem fileByte_stored (hg : g.Sound) (hcs : ∀ c ∈ cs, g.Cluster c) (hnodup : cs.Nodup)
    (hspare : Sparing g w w' cs q cc) (hq : FileHas g cs q) (hclip : q % g.csize + cc ≤ g.csize)
    {S : Nat → Sector} (hstored : ∀ j < cc, w' (fileSect g cs (q + j)) = S j) {i : Nat}
    (hi : FileHas g cs (i / 512)) : fileByte g cs w' i =
      if q ≤ i / 512 ∧ i / 512 < q + cc then (S (i / 512 - q)).get (i % 512)
      else fileByte g cs w i := by
  have hrange := fileSect_range hg hcs hnodup hq hclip hi
  unfold fileByte
  split
  · rename_i hin
    have hsect := hstored (i / 512 - q) (by omega)
    rw [Nat.add_sub_cancel' hin.1] at hsect
    rw [hsect]
  · rename_i hout
    rw [hspare _ fun hin => hout (hrange.mp hin)]

structure Beyond (g : Geometry) (w : Sectors) (fp : Fil) (cs : List Nat) (q cc : Nat)
    (S : Nat → Sector) (r : Fil × Nat) (fs' : Fatfs) (dev' : Device) (w' : Sectors) : Prop where
  fptr : r.1.fptr = fp.fptr
  base : r.1.toFilBase = fp.toFilBase
  spare : Sparing g w w' cs q cc
  stored : ∀ j < cc, w' (fileSect g cs (q + j)) = S j
  opened : Opened g w' fs' dev' { r.1 with fptr := fp.fptr + r.2 }.grown cs

structure Lost (g : Geometry) (w : Sectors) (fp : Fil) (cs : List Nat) (q cc : Nat)
    (e : FResult × Fil) (fs' : Fatfs) (dev' : Device) : Prop where
  error : e = (.diskErr, { fp with err := .diskErr })
  placed : ∃ w', Sparing g w w' cs q cc ∧ Placed g w' fs' dev' e.2 cs

theorem Placed.advance (h : Placed g w fs dev fp cs) (hlinked : Linked g w fp.grown.toFilBase cs)
    (hnoErr : fp.err = .ok) (hroom : fp.fptr + n ≤ cs.length * g.csize * 512)
    (hsmall : fp.fptr + n < 2 ^ 32)
    (hclust : fp.clust = cs.getD ((fp.fptr + n - 1) / 512 / g.csize) 0)
    (hinBuf : (fp.fptr + n) % 512 ≠ 0 → fp.dsect = fileSect g cs ((fp.fptr + n) / 512))
    (hbuffer : fp.dsect ≠ 0 →
      (∃ q, FileHas g cs q ∧ fp.dsect = fileSect g cs q) ∧ fp.buf = w fp.dsect) :
    Opened g w fs dev { fp with fptr := fp.fptr + n }.grown cs := by
  have hsize := hlinked.size
  have hsmall' := hlinked.small
  refine ⟨Placed.grown.mpr (h.set _ _ _), ⟨hlinked.chain, ?_, ?_⟩, hnoErr, ?_, fun _ => hclust,
    hinBuf, hbuffer⟩
  · simp only [Fil.grown] at hsize ⊢
    split <;> split at hsize <;> omega
  · simp only [Fil.grown] at hsmall' ⊢
    split <;> split at hsmall' <;> omega
  · simp only [Fil.grown]
    split <;> omega

theorem Arrived.direct (h : Arrived g w fs dev fp cs q) (hg : g.Sound) (hclean : fp.dirty = false)
    (hptr : fp.fptr = q * 512) (data : Bytes) (hend : fp.fptr + 512 < 2 ^ 32) :
    EnsuresElse deviceStep (writeDirect fp data (fileSect g cs q) 1) fs dev
      (fun r fs' dev' => ∃ fp' w', r = some (fp', 512) ∧
        Beyond g w fp cs q 1 (sectorAt data) (fp', 512) fs' dev' w')
      (Lost g w fp cs q 1) := by
  have hq := h.has
  have hsector := h.data hg hq
  have hclip : q % g.csize + 1 ≤ g.csize := Nat.mod_lt _ hg.csize_pos
  obtain ⟨v, hshows, hover⟩ := h.shows
  obtain rfl : v = w := (Fil.over_clean hclean).symm.trans hover
  simp only [writeDirect, ensuresElse_bind, ensuresElse_lift, ensures_request, ensuresElse_ite,
    ensuresElse_pure]
  refine ⟨⟨_, _, dev.serve_step _⟩, ?_⟩
  intro res _ hstep
  obtain ⟨block, rfl, hwrite⟩ := deviceStep_answers hstep
  rw [blockFor_of_lt hsector.high]
  have hput := hshows.put hsector (h.apart q hq) block res
  have hself : Function.update v (fileSect g cs q) block (fileSect g cs q) = block :=
    Function.update_self ..
  have hspare : Sparing g v (Function.update v (fileSect g cs q) block) cs q 1 :=
    fun n hn => Function.update_of_ne (by omega) _ _
  generalize Function.update v (fileSect g cs q) block = w' at hput hself hspare
  generalize dev.put (fileSect g cs q) block res = dev' at hput
  have hplaced : ∀ fp' : Fil, fp'.toFilBase = fp.toFilBase → fp'.dirty = false →
      Placed g w' fs dev' fp' cs := by
    intro fp' hbase hclean'
    refine ⟨⟨w', hput, Fil.over_clean hclean'⟩, ?_, h.clusters, h.nodup, fun hno => ?_, h.apart⟩
    · rw [hbase]
      exact h.id
    · exact absurd (hclean'.symm.trans hno) Bool.false_ne_true
  refine ⟨fun _ => ?_, fun hres => ?_⟩
  · simp only [abort, ensuresElse_throw]
    exact ⟨rfl, w', hspare, hplaced _ rfl hclean⟩
  · have hstored : w' (fileSect g cs q) = sectorAt data 0 := by
      rw [hself, hwrite (by simpa using hres) Nat.one_pos]
      exact Vector.getElem_ofFn _
    generalize hbuf : (if u32 (fp.dsect + 2 ^ 32 - fileSect g cs q) < 1 then
      { fp with
        buf := sectorAt data (u32 (fp.dsect + 2 ^ 32 - fileSect g cs q)), dirty := false }
      else fp) = fp'
    obtain ⟨hbase, hclean', herr, hfptr, hclust, hdsect⟩ : fp'.toFilBase = fp.toFilBase ∧
        fp'.dirty = false ∧ fp'.err = fp.err ∧ fp'.fptr = fp.fptr ∧ fp'.clust = fp.clust ∧
        fp'.dsect = fp.dsect := by
      rw [← hbuf]
      split <;> simp [hclean]
    have hhigh := hsector.high
    have hrefill : fp.dsect ≠ 0 → fp'.buf = w' fp.dsect := by
      intro hnonzero
      obtain ⟨⟨k, hk, hsect⟩, hold⟩ := h.buffer hnonzero
      have hhigh' := (h.data hg hk).high
      have hplace := u32_sub_eq (a := fp.dsect) (b := fileSect g cs q) (k := 0) (by omega)
        (by omega)
      by_cases hit : fp.dsect = fileSect g cs q
      · rw [← hbuf, hplace.mpr hit, if_pos Nat.one_pos, hit, hstored]
      · rw [← hbuf, if_neg fun hlt => hit (hplace.mp (Nat.lt_one_iff.mp hlt)),
          hspare _ (by omega)]
        exact hold
    have hroom : q + 1 ≤ cs.length * g.csize := hq
    have hlinked : Linked g w' fp'.grown.toFilBase cs := by
      have hgrown : fp'.grown.toFilBase = fp.grown.toFilBase := by
        simp only [Fil.grown, hbase, hfptr]
      rw [hgrown]
      exact h.toLinked.sparing hspare hg h.clusters hq hclip
    refine ⟨fp', w', rfl, hfptr, hbase, hspare, fun j hj => ?_, ?_⟩
    · rwa [Nat.lt_one_iff.mp hj]
    rw [← hfptr]
    apply (hplaced fp' hbase hclean').advance hlinked (herr.trans h.noErr)
    · rw [hfptr, hptr]
      omega
    · rw [hfptr]
      exact hend
    · have hbyte : (q * 512 + 512 - 1) / 512 = q := by omega
      rw [hfptr, hptr, hbyte, hclust]
      exact h.clust
    · rw [hfptr]
      intro hno
      omega
    · rw [hdsect]
      exact fun hnonzero => ⟨(h.buffer hnonzero).1, hrefill hnonzero⟩

theorem putBuf_length (fp : Fil) (hdata : data ≠ []) : 0 < (putBuf fp data).2 ∧
    (putBuf fp data).2 ≤ data.length ∧ fp.fptr % 512 + (putBuf fp data).2 ≤ 512 := by
  have hpos := List.length_pos_iff.mpr hdata
  simp only [putBuf]
  split <;> omega

theorem Placed.put (h : Placed g w fs dev fp cs) (hlinked : Linked g w fp.grown.toFilBase cs)
    (hg : g.Sound) (hnoErr : fp.err = .ok) (hq : FileHas g cs q) (hindex : fp.fptr / 512 = q)
    (hdsect : fp.dsect = fileSect g cs q) (hclust : fp.clust = cs.getD (q / g.csize) 0)
    (hdata : data ≠ []) (hend : fp.fptr + data.length < 2 ^ 32) :
    ∃ w', Beyond g w fp cs q 1
      (fun _ => fp.buf.store (fp.fptr % 512) (data.take (putBuf fp data).2)) (putBuf fp data)
      fs dev w' := by
  obtain ⟨hpos, hle, hfits⟩ := putBuf_length fp hdata
  obtain ⟨v, hshows, hover⟩ := h.shows
  have hclip : q % g.csize + 1 ≤ g.csize := Nat.mod_lt _ hg.csize_pos
  have hput : (putBuf fp data).1 = { fp with
      buf := fp.buf.store (fp.fptr % 512) (data.take (putBuf fp data).2), dirty := true } := rfl
  generalize putBuf fp data = r at *
  obtain ⟨fp', n⟩ := r
  dsimp only at hpos hle hfits hput ⊢
  generalize hwin : fp.buf.store (fp.fptr % 512) (data.take n) = win at *
  have hspare : Sparing g w (Function.update w (fileSect g cs q) win) cs q 1 := by
    intro k hk
    apply Function.update_of_ne
    rintro rfl
    omega
  have hsee : Function.update v fp.dsect win = Function.update w (fileSect g cs q) win := by
    rw [← hover, hdsect, Fil.over]
    split
    · rw [hdsect, Function.update_idem]
    · rfl
  have hplaced : Placed g (Function.update w (fileSect g cs q) win) fs dev
      { fp with buf := win, dirty := true } cs :=
    ⟨⟨v, hshows, hsee⟩, h.id, h.clusters, h.nodup, fun _ => ⟨q, hq, hdsect⟩, h.apart⟩
  subst hput
  refine ⟨_, rfl, rfl, hspare, fun j hj => ?_, ?_⟩
  · obtain rfl : j = 0 := by omega
    exact Function.update_self ..
  · unfold FileHas at hq
    apply hplaced.advance (hlinked.sparing hspare hg h.clusters hq hclip) hnoErr
    · dsimp only
      omega
    · dsimp only
      omega
    · have hbyte : (fp.fptr + n - 1) / 512 = q := by omega
      dsimp only
      rw [hbyte]
      exact hclust
    · dsimp only
      intro hinside
      have hbyte : (fp.fptr + n) / 512 = q := by omega
      rw [hbyte]
      exact hdsect
    · intro _
      refine ⟨⟨q, hq, hdsect⟩, ?_⟩
      dsimp only
      rw [hdsect, Function.update_self]

structure Stored (g : Geometry) (w : Sectors) (fp : Fil) (cs : List Nat) (data : Bytes)
    (r : Fil × Nat) (fs' : Fatfs) (dev' : Device) (w' : Sectors) (cs' : List Nat) : Prop where
  some : 0 < r.2 ∧ r.2 ≤ data.length
  fptr : r.1.fptr = fp.fptr
  base : r.1.toFilBase = { fp.toFilBase with sclust := r.1.sclust }
  opened : Opened g w' fs' dev' { r.1 with fptr := fp.fptr + r.2 }.grown cs'
  ext : Extends g w cs w' cs'
  bytes : ∀ i < max fp.fsize (fp.fptr + r.2), fileByte g cs' w' i =
    if fp.fptr ≤ i ∧ i < fp.fptr + r.2 then data.getD (i - fp.fptr) 0 else fileByte g cs w i

theorem get_sectorAt {i j : Nat} (hdata : (i + 1) * 512 ≤ data.length) (hj : j < 512) :
    (sectorAt data i).get j = data.getD (i * 512 + j) 0 := by
  have hlen : ((data.drop (i * 512)).take 512).length = 512 := by
    simp only [List.length_take, List.length_drop]
    omega
  rw [sectorAt, Sector.get_store (by omega), if_pos (by omega), Nat.sub_zero,
    List.getD_eq_getElem _ _ (by omega), List.getElem_take, List.getElem_drop,
    List.getD_eq_getElem _ _ (by omega)]

theorem Beyond.done {S : Nat → Sector} {r : Fil × Nat}
    (hr : Beyond g w₁ fp' cs' q cc S r fs' dev' w₂)
    (h : Opened g w fs dev fp.grown cs) (hg : g.Sound) (hext : Extends g w cs w₁ cs')
    (hsame : ∀ n, ¬g.InFat n → w₁ n = w n) (hfptr : fp'.fptr = fp.fptr)
    (hbase : fp'.toFilBase = { fp.toFilBase with sclust := fp'.sclust })
    (hq : FileHas g cs' q) (hclip : q % g.csize + cc ≤ g.csize)
    (hsome : 0 < r.2 ∧ r.2 ≤ data.length)
    (hspan : ∀ i, fp.fptr ≤ i → i < fp.fptr + r.2 → q ≤ i / 512 ∧ i / 512 < q + cc)
    (hbytes : ∀ i < max fp.fsize (fp.fptr + r.2), q ≤ i / 512 → i / 512 < q + cc →
      (S (i / 512 - q)).get (i % 512) =
        if fp.fptr ≤ i ∧ i < fp.fptr + r.2 then data.getD (i - fp.fptr) 0
        else fileByte g cs' w₁ i) :
    Stored g w fp cs data r fs' dev' w₂ cs' := by
  have hopened := hr.opened
  rw [hfptr] at hopened
  have hold : ∀ i < max fp.fsize fp.fptr, fileByte g cs' w₁ i = fileByte g cs w i := by
    intro i hi
    have hsize := h.size
    simp only [Fil.grown] at hsize
    have hhas : FileHas g cs (i / 512) := Nat.div_lt_of_lt_mul (by split at hsize <;> omega)
    rw [fileByte, fileByte, (fileSect_old hext.old hhas).2,
      hsame _ ((hhas.data hg h.clusters).not_inFat hg)]
  have hfil : r.1.toFilBase = { fp.toFilBase with sclust := r.1.sclust } := by
    rw [hr.base]
    exact hbase
  have hfsize : r.1.fsize = fp.fsize := by rw [hfil]
  refine ⟨hsome, hr.fptr.trans hfptr, hfil, hopened, ?_, fun i hi => ?_⟩
  · exact hext.overwrite hg hopened.clusters fun n hn => hr.spare.others hg hq hclip hn
  · have hsize := hopened.size
    simp only [Fil.grown, hfsize] at hsize
    have hhas : FileHas g cs' (i / 512) := Nat.div_lt_of_lt_mul (by split at hsize <;> omega)
    rw [fileByte_stored hg hopened.clusters hopened.nodup hr.spare hq hclip hr.stored hhas]
    by_cases hin : q ≤ i / 512 ∧ i / 512 < q + cc
    · rw [if_pos hin, hbytes i hi hin.1 hin.2]
      split
      · rfl
      · exact hold i (by omega)
    · have hnot : ¬(fp.fptr ≤ i ∧ i < fp.fptr + r.2) := fun hno => hin (hspan i hno.1 hno.2)
      rw [if_neg hin, if_neg hnot]
      exact hold i (by omega)

theorem Beyond.doneSector {r : Fil × Nat}
    (hr : Beyond g w₁ fp' cs' q 1 (sectorAt data) r fs' dev' w₂)
    (h : Opened g w fs dev fp.grown cs) (hg : g.Sound) (hext : Extends g w cs w₁ cs')
    (hsame : ∀ n, ¬g.InFat n → w₁ n = w n) (hfptr : fp'.fptr = fp.fptr)
    (hbase : fp'.toFilBase = { fp.toFilBase with sclust := fp'.sclust })
    (hq : FileHas g cs' q) (hptr : fp.fptr = q * 512) (hlen : 512 ≤ data.length)
    (hnum : r.2 = 512) : Stored g w fp cs data r fs' dev' w₂ cs' := by
  apply hr.done h hg hext hsame hfptr hbase hq (Nat.mod_lt _ hg.csize_pos) (by omega)
    (fun i hlow hhigh => by omega)
  intro i hi hlow hhigh
  obtain rfl : q = i / 512 := by omega
  have hplace : 0 * 512 + i % 512 = i - i / 512 * 512 := by omega
  rw [hptr, hnum, if_pos (by omega), Nat.sub_self, ← hplace]
  exact get_sectorAt (by omega) (Nat.mod_lt _ (by decide))

/-- A part of a sector. At the growing edge the rest of the buffer is not of the file. -/
theorem Beyond.donePart {r : Fil × Nat} (hr : Beyond g w₁ fp' cs' q 1
      (fun _ => fp'.buf.store (fp'.fptr % 512) (data.take r.2)) r fs' dev' w₂)
    (h : Opened g w fs dev fp.grown cs) (hg : g.Sound) (hext : Extends g w cs w₁ cs')
    (hsame : ∀ n, ¬g.InFat n → w₁ n = w n) (hfptr : fp'.fptr = fp.fptr)
    (hbase : fp'.toFilBase = { fp.toFilBase with sclust := fp'.sclust })
    (hq : FileHas g cs' q) (hindex : fp.fptr / 512 = q)
    (hbuf : fp'.buf = w₁ (fileSect g cs' q) ∨ fp.fptr = q * 512 ∧ fp.fsize ≤ fp.fptr)
    (hsome : 0 < r.2 ∧ r.2 ≤ data.length ∧ fp'.fptr % 512 + r.2 ≤ 512) :
    Stored g w fp cs data r fs' dev' w₂ cs' := by
  obtain ⟨hpos, hle, hfits⟩ := hsome
  rw [hfptr] at hfits hr
  apply hr.done h hg hext hsame hfptr hbase hq (Nat.mod_lt _ hg.csize_pos) ⟨hpos, hle⟩
  · intro i hlow hhigh
    omega
  · intro i hi hlow hhigh
    obtain rfl : q = i / 512 := by omega
    have hlen : (data.take r.2).length = r.2 := by simp [hle]
    rw [Sector.get_store (by omega), hlen]
    by_cases hin : fp.fptr ≤ i ∧ i < fp.fptr + r.2
    · rw [if_pos (by omega), if_pos hin, List.getD_eq_getElem _ _ (by omega), List.getElem_take,
        ← List.getD_eq_getElem _ 0]
      congr 1
      omega
    · rw [if_neg (by omega), if_neg hin]
      rcases hbuf with hbuf | hedge
      · rw [hbuf, fileByte]
      · omega

end Stores

section Loop
variable {g : Geometry} {w w₁ : Sectors} {fs fs' fs₁ : Fatfs} {dev dev' dev₁ : Device}
  {fp fp₁ : Fil} {cs cs₁ : List Nat} {q : Nat} {data : Bytes}

def PassedOn (g : Geometry) (w : Sectors) (fp : Fil) (cs : List Nat) (data : Bytes)
    (r : Option (Fil × Nat)) (fs' : Fatfs) (dev' : Device) : Prop :=
  match r with
  | none => Opened g w fs' dev' fp.grown cs ∧ Full g w
  | some p => ∃ w' cs', Stored g w fp cs data p fs' dev' w' cs'

theorem Aborted.spoilt {e : FResult × Fil} (h : Aborted g w₁ fp₁ cs₁ e fs' dev')
    (hext : Extends g w cs w₁ cs₁)
    (hbase : fp₁.toFilBase = { fp.toFilBase with sclust := fp₁.sclust })
    (hfptr : fp₁.fptr = fp.fptr) : Spoilt g w fp cs e fs' dev' := by
  refine ⟨⟨w₁, cs₁, h.placed, hext, .inl h.failed.1⟩, h.failed.2, ?_, h.fptr.trans hfptr⟩
  rw [h.base]
  exact hbase

theorem Arrived.pass (h₁ : Arrived g w₁ fs₁ dev₁ fp₁ cs₁ q) (hg : g.Sound)
    (h : Opened g w fs dev fp.grown cs) (hext : Extends g w cs w₁ cs₁)
    (hsame : ∀ n, ¬g.InFat n → w₁ n = w n) (hfptr : fp₁.fptr = fp.fptr)
    (hbase : fp₁.toFilBase = { fp.toFilBase with sclust := fp₁.sclust })
    (hptr : fp.fptr = q * 512) (hdata : data ≠ []) (hone : data.length ≤ 512)
    (hend : fp.fptr + data.length < 2 ^ 32) :
    EnsuresElse deviceStep (do
      let fp ← flushBuf fp₁
      let sect := clust2sect g fp.clust
      if sect = 0 then abort .intErr fp
      else do
        let sect := u32 (sect + q % g.csize)
        let cc := data.length / 512
        if cc ≠ 0 then
          writeDirect fp data sect
            (if g.csize < q % g.csize + cc then g.csize - q % g.csize else cc)
        else do
          let fp ← if fp.dsect ≠ sect ∧ fp.fptr < fp.fsize then loadBuf fp sect else pure fp
          pure (some (putBuf { fp with dsect := sect } data))) fs₁ dev₁
      (PassedOn g w fp cs data) (Spoilt g w fp cs) := by
  have hq := h₁.has
  obtain ⟨hnonzero, hsect⟩ := clust2sect_fileSect hg h₁.clusters hq
  rw [← h₁.clust] at hnonzero hsect
  simp only [ensuresElse_bind]
  apply (ensuresElse_flushBuf hg h₁.toPlaced).mono
  · intro fp₂ fs₂ dev₂ hcleaned
    have hplaced := hcleaned.placed
    have hfil := hcleaned.fil
    have hwindow := hcleaned.window
    clear hcleaned
    subst hwindow
    subst hfil
    have h₂ : Arrived g w₁ fs₂ dev₂ { fp₁ with dirty := false } cs₁ q :=
      ⟨⟨hplaced, h₁.toLinked, h₁.noErr, h₁.buffer⟩, hq, h₁.clust⟩
    simp only [hsect, ensuresElse_ite, ensuresElse_bind]
    refine ⟨fun hno => absurd hno hnonzero, fun _ => ⟨fun hdirect => ?_, fun hpart => ?_⟩⟩
    · have hrem : q % g.csize < g.csize := Nat.mod_lt _ hg.csize_pos
      have hclip : q % g.csize + 1 ≤ g.csize := hrem
      have hcc : (if g.csize < q % g.csize + data.length / 512 then g.csize - q % g.csize
          else data.length / 512) = 1 := by
        split <;> omega
      rw [hcc]
      have hfits : fp₁.fptr + 512 < 2 ^ 32 := by omega
      apply (h₂.direct hg rfl (hfptr.trans hptr) data hfits).mono
      · rintro _ fs' dev' ⟨fp', w', rfl, hbeyond⟩
        exact ⟨w', cs₁, hbeyond.doneSector h hg hext hsame hfptr hbase hq hptr (by omega) rfl⟩
      · rintro _ fs' dev' ⟨rfl, w', hspare, hplaced'⟩
        exact ⟨⟨w', cs₁, hplaced', hext.overwrite hg hplaced'.clusters fun n hn =>
          hspare.others hg hq hclip hn, .inl rfl⟩, rfl, hbase, hfptr⟩
    · have hput : ∀ buf dev', Placed g w₁ fs₂ dev' { fp₁ with dirty := false, buf := buf } cs₁ →
          buf = w₁ (fileSect g cs₁ q) ∨ fp.fptr = q * 512 ∧ fp.fsize ≤ fp.fptr →
          PassedOn g w fp cs data (some (putBuf { fp₁ with
            dirty := false, buf := buf, dsect := fileSect g cs₁ q } data)) fs₂ dev' := by
        intro buf dev' hplaced' hbuf
        have hindex : fp₁.fptr / 512 = q := by
          rw [hfptr, hptr, Nat.mul_div_cancel _ (by decide)]
        have hmoved := hplaced'.toSector rfl (fileSect g cs₁ q)
        obtain ⟨w', hbeyond⟩ := hmoved.put h₁.toLinked hg h₁.noErr
          hq hindex rfl h₁.clust hdata (by rwa [hfptr])
        exact ⟨w', cs₁, hbeyond.donePart h hg hext hsame hfptr hbase hq (hfptr ▸ hindex) hbuf
          (putBuf_length _ hdata)⟩
      refine ⟨fun _ => ?_, fun hno => ?_⟩
      · apply (ensuresElse_loadBuf hg hplaced rfl hq).mono
        · intro fp₃ fs₃ dev₃ hloaded
          have hplaced' := hloaded.placed
          have hfil := hloaded.fil
          have hwindow := hloaded.window
          clear hloaded
          subst hwindow
          subst hfil
          exact (ensuresElse_pure _).mpr (hput _ _ hplaced' (.inl rfl))
        · exact fun e _ _ habort => habort.spoilt hext hbase hfptr
      · refine (ensuresElse_pure _).mpr ((ensuresElse_pure _).mpr (hput _ _ hplaced ?_))
        by_cases hthere : fp₁.dsect = fileSect g cs₁ q
        · refine .inl ?_
          rw [← hthere]
          exact (h₁.buffer (hthere ▸ (hq.data hg h₁.clusters).pos hg)).2
        · have hsize : fp₁.fsize = fp.fsize := by rw [hbase]
          rw [not_and, hfptr, hsize, not_lt] at hno
          exact .inr ⟨hptr, hno hthere⟩
  · exact fun e _ _ hkept => hkept.aborted.spoilt hext hbase hfptr

theorem ensuresElse_writePass (hg : g.Sound) (h : Opened g w fs dev fp.grown cs) (hdata : data ≠ [])
    (hone : data.length ≤ 512) (hend : fp.fptr + data.length < 2 ^ 32) :
    EnsuresElse deviceStep (writePass fp data) fs dev (PassedOn g w fp cs data)
      (Spoilt g w fp cs) := by
  obtain ⟨v, hshows, -⟩ := h.shows
  have hgeom := hshows.geometry
  rw [writePass]
  split
  · rename_i hstart
    obtain ⟨q, hptr⟩ : ∃ q, fp.fptr = q * 512 := ⟨fp.fptr / 512, by omega⟩
    have hindex : fp.fptr / 512 = q := by omega
    simp only [ensuresElse_bind, ensuresElse_get, hgeom, hg.and_mask, hindex]
    apply (ensuresElse_writeCluster hg h hptr).mono
    · intro r fs₁ dev₁ hwent
      cases r with
      | none =>
        exact (ensuresElse_pure _).mpr ⟨⟨Placed.grown.mpr hwent.1, h.toLinked, h.noErr, h.fptr,
          h.clust, h.inBuf, h.buffer⟩, hwent.2⟩
      | some fp₁ =>
        obtain ⟨clust, sclust, w₁, cs₁, rfl, harrived, hext, hsame⟩ := hwent
        exact harrived.pass hg h hext hsame rfl rfl hptr hdata hone hend
    · exact fun _ _ _ hspoilt => hspoilt
  · rename_i hinside
    have hready := h.ready hg hinside
    have hle := h.fptr.trans h.size
    have hq : FileHas g cs (fp.fptr / 512) := by
      change fp.fptr ≤ _ at hle
      exact Nat.div_lt_of_lt_mul (by omega)
    obtain ⟨w', hbeyond⟩ :=
      (Placed.grown.mp h.toPlaced).put h.toLinked hg h.noErr hq rfl hready.dsect
      hready.clust hdata hend
    refine (ensuresElse_pure _).mpr ⟨w', cs, hbeyond.donePart h hg (.refl w cs) (fun _ _ => rfl) rfl
      rfl hq rfl (.inl ?_) (putBuf_length _ hdata)⟩
    exact hready.buf.trans (congrArg w hready.dsect)

/-- What `f_write` comes to: the bytes are stored, or as many as there is room for. After an error
the file is not longer than before. -/
structure HasWritten (g : Geometry) (w : Sectors) (fp : Fil) (cs : List Nat) (data : Bytes)
    (bw : Nat) (r : FResult × Fil × Nat) (fs' : Fatfs) (dev' : Device) (w' : Sectors)
    (cs' : List Nat) (n : Nat) : Prop where
  count : r.2.2 = bw + n ∧ n ≤ data.length
  fptr : r.2.1.fptr = fp.fptr + n
  base : r.2.1.toFilBase = { fp.toFilBase with
    sclust := r.2.1.sclust, fsize := r.2.1.fsize, written := r.2.1.written }
  ext : Extends g w cs w' cs'
  outcome :
    r.1 = .ok ∧ (n < data.length → Full g w') ∧ Opened g w' fs' dev' r.2.1 cs' ∧
      r.2.1.fsize = max fp.fsize (fp.fptr + n) ∧ r.2.1.written = true ∧
      (∀ i < max fp.fsize (fp.fptr + n), fileByte g cs' w' i =
        if fp.fptr ≤ i ∧ i < fp.fptr + n then data.getD (i - fp.fptr) 0 else fileByte g cs w i) ∨
    Fatal g w' r.1 ∧ r.2.1.err = r.1 ∧ n < data.length ∧ Placed g w' fs' dev' r.2.1 cs' ∧
      r.2.1.fsize = fp.fsize ∧ r.2.1.written = fp.written

theorem Opened.finished (h : Opened g w fs dev fp.grown cs) {bw : Nat}
    (hfull : data ≠ [] → Full g w) :
    HasWritten g w fp cs data bw (.ok, { fp.grown with written := true }, bw) fs dev w cs 0 := by
  refine ⟨⟨rfl, Nat.zero_le _⟩, rfl, rfl, .refl w cs, .inl ⟨rfl, fun hpos => hfull ?_, ⟨⟨h.shows,
    h.id, h.clusters, h.nodup, h.loaded, h.apart⟩, ⟨h.chain, h.size, h.small⟩, h.noErr,
    h.fptr, h.clust, h.inBuf, h.buffer⟩, ?_, rfl, fun i _ => (if_neg (by omega)).symm⟩⟩
  · exact List.ne_nil_of_length_pos hpos
  · simp only [Fil.grown]
    split <;> omega

theorem Stored.trans {r : Fil × Nat} {w' : Sectors} {cs' : List Nat} {bw n : Nat}
    {r' : FResult × Fil × Nat} (h : Stored g w fp cs data r fs₁ dev₁ w₁ cs₁)
    (h' : HasWritten g w₁ { r.1 with fptr := r.1.fptr + r.2 } cs₁ (data.drop r.2) (bw + r.2) r' fs'
      dev' w' cs' n) :
    HasWritten g w fp cs data bw r' fs' dev' w' cs' (r.2 + n) := by
  obtain ⟨⟨hpos, hle⟩, hfptr, hbase, -, hext, hbytes⟩ := h
  have hlen : (data.drop r.2).length = data.length - r.2 := List.length_drop
  have hcount := h'.count
  have hfsize : r.1.fsize = fp.fsize := by rw [hbase]
  have hwritten : r.1.written = fp.written := by rw [hbase]
  have hplace := h'.fptr
  have houtcome := h'.outcome
  have hbase' := h'.base
  have hclusters : ∀ c ∈ cs', g.Cluster c := by
    rcases houtcome with ⟨-, -, hopened, -⟩ | ⟨-, -, -, hplaced, -⟩
    · exact hopened.clusters
    · exact hplaced.clusters
  dsimp only at hplace houtcome hbase'
  rw [hfptr] at hplace houtcome
  rw [hlen] at hcount houtcome
  rw [hfsize, hwritten] at houtcome
  refine ⟨⟨by omega, by omega⟩, by omega, ?_, hext.trans h'.ext hclusters, ?_⟩
  · rw [hbase', hbase]
  · refine houtcome.imp ?_ fun herr => ⟨herr.1, herr.2.1, by omega, herr.2.2.2⟩
    rintro ⟨hok, hfull, hopened, hsize, hflag, hrest⟩
    refine ⟨hok, fun hlt => hfull (by omega), hopened, by omega, hflag, fun i hi => ?_⟩
    rw [hrest i (by omega)]
    by_cases hsnd : fp.fptr + r.2 ≤ i ∧ i < fp.fptr + r.2 + n
    · have hplace' : r.2 + (i - (fp.fptr + r.2)) = i - fp.fptr := by omega
      rw [if_pos hsnd, if_pos (by omega), List.getD_eq_getElem?_getD, List.getElem?_drop, hplace',
        List.getD_eq_getElem?_getD]
    · rw [if_neg hsnd, hbytes i (by omega)]
      by_cases hfst : fp.fptr ≤ i ∧ i < fp.fptr + r.2
      · rw [if_pos hfst, if_pos (by omega)]
      · rw [if_neg hfst, if_neg (by omega)]

theorem ensures_writeLoop (hg : g.Sound) (h : Opened g w fs dev fp.grown cs) {fuel : Nat}
    (hfuel : data.length < fuel) (hone : data.length ≤ 512)
    (hend : fp.fptr + data.length < 2 ^ 32) (bw : Nat) :
    Ensures deviceStep (writeLoop fuel fp data bw) fs dev (fun r fs' dev' =>
      ∃ w' cs' n, HasWritten g w fp cs data bw r fs' dev' w' cs' n) := by
  induction fuel generalizing w fs dev fp cs data bw with
  | zero => omega
  | succ fuel ih =>
    simp only [writeLoop, ensures_ite, ensures_bind, ensures_pure]
    refine ⟨fun hnone => ⟨w, cs, 0, h.finished fun hno => absurd hnone hno⟩, fun hmore => ?_⟩
    apply Ensures.mono (ensuresElse_writePass hg h hmore hone hend)
    rintro _ fs₁ dev₁ (⟨r, rfl, hpass⟩ | ⟨⟨res, fp₁⟩, rfl, hspoilt⟩)
    · cases r with
      | none => exact (ensures_pure _).mpr ⟨w, cs, 0, hpass.1.finished fun _ => hpass.2⟩
      | some p =>
        obtain ⟨w₁, cs₁, hstored⟩ := hpass
        obtain ⟨hpos, hle⟩ := hstored.some
        have hlen : (data.drop p.2).length = data.length - p.2 := List.length_drop
        have hopened := hstored.opened
        rw [← hstored.fptr] at hopened
        apply (ih hopened (by omega) (by omega) ?_ (bw + p.2)).mono
        · rintro r fs₂ dev₂ ⟨w', cs', n, hrest⟩
          exact ⟨w', cs', p.2 + n, hstored.trans hrest⟩
        · have hfptr := hstored.fptr
          dsimp only
          omega
    · obtain ⟨⟨w', cs', hplaced, hext, hfatal⟩, hfailed, hbase, hfptr⟩ := hspoilt
      have hpos := List.length_pos_iff.mpr hmore
      refine (ensures_pure _).mpr ⟨w', cs', 0, ⟨rfl, Nat.zero_le _⟩, hfptr, ?_, hext,
        .inr ⟨hfatal, hfailed, hpos, hplaced, ?_, ?_⟩⟩
      · dsimp only at hbase ⊢
        rw [hbase]
      · dsimp only at hbase ⊢
        rw [hbase]
      · dsimp only at hbase ⊢
        rw [hbase]

theorem Opened.grown (h : Opened g w fs dev fp cs) : fp.grown = fp := by
  rw [Fil.grown, if_neg (not_lt.mpr h.fptr)]

theorem ensures_fWrite (hg : g.Sound) (h : Opened g w fs dev fp cs) (hatt : fp.attached = true)
    (hwrite : fp.write = true) (hone : data.length ≤ 512) :
    Ensures deviceStep (fp.fWrite data) fs dev (fun r fs' dev' => ∃ w' cs' n,
      HasWritten g w fp cs (if fp.fptr + data.length < 2 ^ 32 then data else []) 0 r fs' dev' w' cs'
        n) := by
  have hfptr := h.fptr
  have hsmall := h.small
  have hwrap : (if u32 (fp.fptr + data.length) < fp.fptr then [] else data) =
      if fp.fptr + data.length < 2 ^ 32 then data else [] := by
    unfold u32
    split <;> split <;> first | rfl | omega
  simp only [Fil.fWrite, ensures_bind, h.validate hg hatt, ensures_ite, h.noErr, hwrite, hwrap,
    ne_eq, not_true_eq_false, false_imp_iff, true_and, not_false_eq_true, true_imp_iff,
    Bool.true_eq_false]
  rw [← h.grown] at h
  refine ensures_writeLoop hg h (Nat.lt_succ_self _) ?_ ?_ 0
  · split
    · exact hone
    · exact Nat.zero_le _
  · split
    · assumption
    · rw [List.length_nil]
      omega

end Loop

end FtpServer

import FtpServer.Writing

/-! `f_lseek`: along the chain of clusters to the one of the new position, from the current
cluster where that is possible. A file that is open for writing is stretched on the way. -/

namespace FtpServer
open Interaction CString

section Source

/-- From where the cluster following loop starts, and how far it is from there. -/
def seekStart (fp : Fil) (ifptr ofs : Nat) : FileOp (Fil × Nat × Nat) := do
  let fs ← get
  let bcs := fs.csize * 512
  if 0 < ifptr ∧ (ifptr - 1) / bcs ≤ (ofs - 1) / bcs then
    -- `(ifptr - 1) & ~(bcs - 1)`
    let fptr := ifptr - 1 &&& 2 ^ 32 - 1 - (bcs - 1)
    pure ({ fp with fptr := fptr }, fp.clust, ofs - fptr)
  else if fp.sclust = 0 then do
    let clst ← liftM (createChain 0)
    if clst = 1 then abort .intErr fp
    else if clst = diskError then abort .diskErr fp
    else pure ({ fp with sclust := clst, clust := clst }, clst, ofs)
  else pure ({ fp with clust := fp.sclust }, fp.sclust, ofs)

def seekLoop : Nat → Fil → Nat → Nat → FileOp (Fil × Nat × Nat)
  | 0, _, _, _ => liftM (stuck : FatFs _)
  | fuel + 1, fp, clst, ofs => do
    let fs ← get
    let bcs := fs.csize * 512
    if bcs < ofs then do
      let clst ← if fp.write = true then liftM (createChain clst) else liftM (getFat clst)
      -- when disk gets full, clip file size
      if fp.write = true ∧ clst = 0 then pure (fp, clst, bcs)
      else if clst = diskError then abort .diskErr fp
      else if clst ≤ 1 ∨ fs.nFatent ≤ clst then abort .intErr fp
      else seekLoop fuel { fp with clust := clst, fptr := fp.fptr + bcs } clst (ofs - bcs)
    else pure (fp, clst, ofs)

/-- The new position, and the sector that has to be in the buffer. -/
def seekTo (fp : Fil) (ifptr ofs : Nat) : FileOp (Fil × Nat) :=
  if ofs = 0 then pure (fp, 0)
  else do
    let (fp, clst, ofs) ← seekStart fp ifptr ofs
    if clst = 0 then pure (fp, 0)
    else do
      let (fp, clst, ofs) ← seekLoop (ofs + 1) fp clst ofs
      let fp := { fp with fptr := fp.fptr + ofs }
      if ofs % 512 = 0 then pure (fp, 0)
      else do
        let fs ← get
        let nsect := clust2sect fs.toGeometry clst
        if nsect = 0 then abort .intErr fp
        else pure (fp, u32 (nsect + ofs / 512))

def seek (fp : Fil) (ofs : Nat) : FileOp Fil := do
  let (fp, nsect) ← seekTo { fp with fptr := 0 } fp.fptr ofs
  if fp.fptr % 512 = 0 then pure fp
  else fillBuf fp nsect

def Fil.fLseek (fp : Fil) (ofs : Nat) : FatFs (FResult × Fil) := do
  let res ← validate fp
  if res ≠ .ok then pure (res, fp)
  else if fp.err ≠ .ok then pure (fp.err, fp)
  else do
    match ← (seek fp (if fp.fsize < ofs ∧ fp.write = false then fp.fsize else ofs)).run with
    | .error e => pure e
    | .ok fp =>
      -- set file change flag if the file size is extended
      pure (.ok, { fp.grown with written := fp.written || decide (fp.fsize < fp.fptr) })

end Source

section Start
variable {g : Geometry} {w w' : Sectors} {fs fs' : Fatfs} {dev dev' : Device} {fp fp' : Fil}
  {cs cs' : List Nat} {k ofs : Nat}

theorem and_high {n j : Nat} (hn : n < 2 ^ 32) (hj : j ≤ 32) :
    n &&& 2 ^ 32 - 1 - (2 ^ j - 1) = n / 2 ^ j * 2 ^ j := by
  have hmask : 2 ^ 32 - 1 - (2 ^ j - 1) = (2 ^ (32 - j) - 1) * 2 ^ j := by
    have hpow : 2 ^ (32 - j) * 2 ^ j = 2 ^ 32 := by rw [← Nat.pow_add, Nat.sub_add_cancel hj]
    have hpos := Nat.two_pow_pos j
    rw [Nat.sub_mul, Nat.one_mul, hpow]
    omega
  rw [hmask]
  apply Nat.eq_of_testBit_eq
  intro i
  rw [Nat.testBit_and, Nat.testBit_mul_two_pow, Nat.testBit_mul_two_pow, Nat.testBit_div_two_pow,
    Nat.testBit_two_pow_sub_one]
  by_cases hi : j ≤ i
  · by_cases hlt : i < 32
    · simp [hi, show i - j < 32 - j by omega]
    · have hhigh : n.testBit i = false := Nat.testBit_lt_two_pow (hn.trans_le
        (Nat.pow_le_pow_right (by decide) (by omega)))
      simp [hi, hhigh]
  · simp [hi]

theorem Geometry.Sound.bcs (hg : g.Sound) : ∃ j ≤ 16, g.csize * 512 = 2 ^ j := by
  obtain ⟨k, hk, hcsize⟩ := hg.cluster
  exact ⟨k + 9, by omega, by rw [hcsize, Nat.pow_add]⟩

structure Sought (g : Geometry) (w : Sectors) (fs : Fatfs) (fp : Fil) (cs : List Nat) (fp' : Fil)
    (fs' : Fatfs) (dev' : Device) (w' : Sectors) (cs' : List Nat) (k : Nat) : Prop where
  arrived : Arrived g w' fs' dev' fp' cs' (k * g.csize)
  fptr : fp'.fptr = k * (g.csize * 512)
  base : fp'.toFilBase = { fp.toFilBase with sclust := fp'.sclust }
  ext : Extends g w cs w' cs'
  same : ∀ n, ¬g.InFat n → w' n = w n
  kept : k < cs.length → w' = w ∧ cs' = cs ∧ Rests fs fp.dirty fs' fp'.dirty

structure Strayed (g : Geometry) (w : Sectors) (fp : Fil) (cs : List Nat) (e : FResult × Fil)
    (fs' : Fatfs) (dev' : Device) : Prop where
  placed : ∃ w' cs', Placed g w' fs' dev' e.2 cs' ∧ Extends g w cs w' cs' ∧
    (fp.write = false → w' = w ∧ cs' = cs ∧ e.1 = .diskErr) ∧ Fatal g w' e.1
  failed : e.2.err = e.1
  base : e.2.toFilBase = { fp.toFilBase with sclust := e.2.sclust }

theorem Placed.strayed (h : Placed g w' fs' dev' fp' cs') (hext : Extends g w cs w' cs')
    {res : FResult} (hkept : fp.write = false → w' = w ∧ cs' = cs ∧ res = .diskErr)
    (hbase : fp'.toFilBase = { fp.toFilBase with sclust := fp'.sclust })
    (hres : Fatal g w' res) {α : Type} {post : α → Fatfs → Device → Prop} :
    EnsuresElse deviceStep (FtpServer.abort res fp' : FileOp α) fs' dev' post
      (Strayed g w fp cs) := by
  simp only [FtpServer.abort, ensuresElse_throw]
  exact ⟨⟨w', cs', h.set _ _ _, hext, hkept, hres⟩, rfl, hbase⟩

def Started (g : Geometry) (w : Sectors) (fs : Fatfs) (fp : Fil) (cs : List Nat) (ofs : Nat)
    (r : Fil × Nat × Nat) (fs' : Fatfs) (dev' : Device) : Prop :=
  (r.2.1 = 0 ∧ (Full g w ∧ fp.fsize = 0) ∧ fp.write = true) ∧ Steady g w fs' dev' r.1 cs ∧
      r.1.fptr = 0 ∧
      r.1.toFilBase = fp.toFilBase ∧ Rests fs fp.dirty fs' r.1.dirty ∨
    ∃ w' cs' k, Sought g w fs fp cs r.1 fs' dev' w' cs' k ∧ r.2.1 = r.1.clust ∧ 0 < r.2.2 ∧
      k * (g.csize * 512) + r.2.2 = ofs

theorem Fil.le_grown (fp : Fil) : fp.fsize ≤ fp.grown.fsize := by
  simp only [Fil.grown]
  split <;> omega

theorem Steady.move (h : Steady g w fs dev fp cs) {fptr : Nat}
    (hroom : fptr ≤ cs.length * g.csize * 512) (hsmall : fptr < 2 ^ 32) (clust : Nat) :
    Steady g w fs dev { fp with fptr := fptr, clust := clust } cs := by
  have hsize := fp.le_grown.trans h.size
  have hsmall' := fp.le_grown.trans_lt h.small
  refine ⟨h.set _ _ _, ⟨h.chain, ?_, ?_⟩, h.noErr, h.buffer⟩
  · simp only [Fil.grown]
    split <;> omega
  · simp only [Fil.grown]
    split <;> omega

theorem Arrived.ne_zero {q : Nat} (h : Arrived g w fs dev fp cs q) : fp.clust ≠ 0 := by
  have hlow := (h.has.cluster h.clusters).1
  rw [← h.clust] at hlow
  omega

theorem Opened.toSteady (h : Opened g w fs dev fp cs) : Steady g w fs dev fp cs := by
  rw [← h.grown] at h
  exact h.steady

/-- The current cluster is the one of the byte before the position. -/
theorem Opened.startNear (h : Opened g w fs dev fp cs) (hg : g.Sound) (hofs : 0 < ofs)
    (hptr : 0 < fp.fptr)
    (hle : (fp.fptr - 1) / (g.csize * 512) ≤ (ofs - 1) / (g.csize * 512)) {fptr : Nat}
    (hback : fptr = (fp.fptr - 1) / (g.csize * 512) * (g.csize * 512)) :
    Started g w fs fp cs ofs ({ fp with fptr := fptr }, fp.clust, ofs - fptr) fs dev := by
  have hfptr := h.fptr
  have hsize := h.size
  have hsmall := h.small
  have hsteady := h.toSteady
  have hpos : 0 < g.csize * 512 := Nat.mul_pos hg.csize_pos (by decide)
  have hroom : fp.fptr - 1 < cs.length * (g.csize * 512) := by
    rw [Nat.mul_assoc] at hsize
    omega
  have hlt : (fp.fptr - 1) / (g.csize * 512) < cs.length :=
    Nat.div_lt_of_lt_mul (by rwa [Nat.mul_comm])
  have hbehind := Nat.div_mul_le_self (fp.fptr - 1) (g.csize * 512)
  have hahead := (Nat.mul_le_mul_right (g.csize * 512) hle).trans
    (Nat.div_mul_le_self (ofs - 1) (g.csize * 512))
  have hclust := h.clust (by omega)
  rw [Nat.div_div_eq_div_mul, Nat.mul_comm 512] at hclust
  generalize (fp.fptr - 1) / (g.csize * 512) = k at *
  subst hback
  refine .inr ⟨w, cs, k, ⟨⟨hsteady.move ?_ ?_ fp.clust, ?_, ?_⟩, rfl, rfl, .refl w cs,
    fun _ _ => rfl, fun _ => ⟨rfl, rfl, id, id⟩⟩, rfl, ?_, ?_⟩
  · omega
  · omega
  · exact Nat.mul_lt_mul_of_pos_right hlt hg.csize_pos
  · rw [Nat.mul_div_cancel _ hg.csize_pos]
    exact hclust
  · dsimp only
    omega
  · dsimp only
    omega

theorem Opened.startFirst (h : Opened g w fs dev fp cs) (hg : g.Sound) (hofs : 0 < ofs)
    (hsome : fp.sclust ≠ 0) :
    Started g w fs fp cs ofs ({ fp with fptr := 0, clust := fp.sclust }, fp.sclust, ofs) fs
      dev := by
  obtain ⟨hcluster, hchain⟩ := h.chain.resolve_left fun hno => hsome hno.2
  have hlen : 0 < cs.length := by
    rw [List.length_pos_iff]
    rintro rfl
    exact absurd hcluster.2 (not_lt.mpr (chain_nil.mp hchain))
  refine .inr ⟨w, cs, 0, ⟨⟨h.toSteady.move (Nat.zero_le _) (by decide) _, ?_, ?_⟩, ?_,
    rfl, .refl w cs, fun _ _ => rfl, fun _ => ⟨rfl, rfl, id, id⟩⟩, rfl, hofs, ?_⟩
  · rw [Nat.zero_mul]
    exact Nat.mul_pos hlen hg.csize_pos
  · rw [Nat.zero_mul, Nat.zero_div]
    exact (hchain.head hlen).symm
  · rw [Nat.zero_mul]
  · rw [Nat.zero_mul, Nat.zero_add]

theorem Opened.empty (h : Opened g w fs dev fp cs) (hnone : fp.sclust = 0) :
    cs = [] ∧ fp.fsize = 0 := by
  have hempty : cs = [] := by
    rcases h.chain with ⟨hempty, -⟩ | ⟨⟨hlow, -⟩, -⟩
    · exact hempty
    · omega
  have hsize := h.size
  rw [hempty, List.length_nil] at hsize
  exact ⟨hempty, by omega⟩

theorem ensuresElse_startNew (hg : g.Sound) (h : Opened g w fs dev fp cs) (hofs : 0 < ofs)
    (hclip : fp.write = false → ofs ≤ fp.fsize) (hnone : fp.sclust = 0) :
    EnsuresElse deviceStep (do
        let clst ← liftM (createChain 0)
        if clst = 1 then abort .intErr { fp with fptr := 0 }
        else if clst = diskError then abort .diskErr { fp with fptr := 0 }
        else pure ({ fp with fptr := 0, sclust := clst, clust := clst }, clst, ofs)) fs dev
      (Started g w fs fp cs ofs) (Strayed g w fp cs) := by
  obtain ⟨v, hshows, hover⟩ := h.shows
  obtain ⟨hempty, hlen⟩ := h.empty hnone
  have hzero : Steady g w fs dev { fp with fptr := 0 } cs :=
    h.toSteady.move (Nat.zero_le _) (by decide) fp.clust
  have hwrite : fp.write = true := by
    by_contra hno
    have hle := hclip (by simpa using hno)
    omega
  have hread : ∀ {p : Prop}, fp.write = false → p := by
    rw [hwrite]
    simp
  simp only [ensuresElse_bind, ensuresElse_lift, ensuresElse_ite, ensuresElse_pure]
  apply (ensures_createChain hg hshows 0).mono
  rintro clst fs₁ dev₁ ⟨v', hcreated⟩
  rcases hzero.created hg hover (q := 0) (.inl ⟨rfl, hempty, rfl⟩) hcreated with
    ⟨rfl, hplaced, ⟨hfull, -⟩, hclean⟩ | ⟨hcluster, w', cs', harrived, hext, hsame, -⟩ |
    ⟨w', hbad, hplaced, hext⟩
  · refine ⟨fun hno => absurd hno (by decide), fun _ => ⟨fun hno => absurd hno (by decide),
      fun _ => .inl ⟨⟨rfl, ⟨hfull, hlen⟩, hwrite⟩, ?_, rfl, ?_, ⟨hclean, id⟩⟩⟩⟩
    · exact ⟨⟨hplaced.shows, hplaced.id, hplaced.clusters, hplaced.nodup,
        hplaced.loaded, hplaced.apart⟩, ⟨.inl ⟨hempty, rfl⟩, hzero.size, hzero.small⟩,
        hzero.noErr, hzero.buffer⟩
    · change { fp.toFilBase with sclust := 0 } = fp.toFilBase
      rw [← hnone]
  · have hlow := hcluster.1
    have hhigh := hcluster.2
    have hend : g.nFatent < diskError := hg.nFatent_lt
    refine ⟨fun hno => by omega, fun _ => ⟨fun hno => by omega, fun _ => ?_⟩⟩
    rw [if_pos hnone] at harrived
    refine .inr ⟨w', cs', 0, ⟨?_, ?_, rfl, hext, hsame, ?_⟩, rfl, hofs, ?_⟩
    · rw [Nat.zero_mul]
      exact harrived
    · rw [Nat.zero_mul]
    · intro hno
      rw [hempty] at hno
      cases hno
    · rw [Nat.zero_mul, Nat.zero_add]
  · refine ⟨fun hone => ?_, fun hone => ⟨fun _ =>
      hplaced.strayed hext hread (by rfl) (.inl rfl), fun hno => ?_⟩⟩
    · obtain ⟨-, hreserved⟩ := hbad.resolve_right (by simp [hone, diskError])
      exact hplaced.strayed hext hread (by rfl) (.inr ⟨rfl, hreserved⟩)
    · exact absurd hbad (by simp [hone, hno])

theorem ensuresElse_seekStart (hg : g.Sound) (h : Opened g w fs dev fp cs) (hofs : 0 < ofs)
    (hclip : fp.write = false → ofs ≤ fp.fsize) :
    EnsuresElse deviceStep (seekStart { fp with fptr := 0 } fp.fptr ofs) fs dev
      (Started g w fs fp cs ofs) (Strayed g w fp cs) := by
  obtain ⟨v, hshows, -⟩ := h.shows
  have hcsize : fs.csize = g.csize := congrArg Geometry.csize hshows.geometry
  obtain ⟨j, hj, hbcs⟩ := hg.bcs
  have hmask : fp.fptr - 1 &&& 2 ^ 32 - 1 - (g.csize * 512 - 1) =
      (fp.fptr - 1) / (g.csize * 512) * (g.csize * 512) := by
    have hfptr := h.fptr
    have hsmall := h.small
    rw [hbcs]
    exact and_high (by omega) (by omega)
  rw [seekStart, ensuresElse_bind, ensuresElse_get, hcsize]
  dsimp only
  rw [ensuresElse_ite, ensuresElse_ite]
  refine ⟨fun hfollow => ?_, fun _ => ⟨fun hnone => ?_, fun hsome => ?_⟩⟩
  · exact (ensuresElse_pure _).mpr (h.startNear hg hofs hfollow.1 hfollow.2 hmask)
  · exact ensuresElse_startNew hg h hofs hclip hnone
  · exact (ensuresElse_pure _).mpr (h.startFirst hg hofs hsome)

end Start

section Follow
variable {g : Geometry} {w w₁ : Sectors} {fs fs₁ fs' : Fatfs} {dev dev₁ dev' : Device}
  {fp fp₁ fp' : Fil} {cs cs₁ : List Nat} {k ofs clst target : Nat}

/-- What there is behind cluster `k`: no room, the next cluster, or an error. -/
def Followed (g : Geometry) (w : Sectors) (fs : Fatfs) (fp : Fil) (cs : List Nat) (fp₁ : Fil)
    (k clst : Nat) (fs' : Fatfs) (dev' : Device) : Prop :=
  (clst = 0 ∧ fp.write = true) ∧
      (∃ w' cs', Sought g w fs fp cs fp₁ fs' dev' w' cs' k ∧ Full g w' ∧ k + 1 = cs'.length) ∨
    g.Cluster clst ∧ (∃ w' cs', Sought g w fs fp cs { fp₁ with
      clust := clst, fptr := fp₁.fptr + g.csize * 512 } fs' dev' w' cs' (k + 1)) ∨
    ∃ w' cs', (clst = 1 ∧ fp.write = true ∧ Reserved g w' ∨ clst = diskError) ∧
      Placed g w' fs' dev' fp₁ cs' ∧ Extends g w cs w' cs' ∧
      (fp.write = false → w' = w ∧ cs' = cs)

theorem Sought.sclust_ne (h : Sought g w fs fp cs fp₁ fs₁ dev₁ w₁ cs₁ k) : fp₁.sclust ≠ 0 := by
  intro hnone
  rcases h.arrived.chain with ⟨rfl, -⟩ | ⟨⟨hlow, -⟩, -⟩
  · cases h.arrived.has.div_lt
  · change 2 ≤ fp₁.sclust at hlow
    omega

theorem Sought.next (h : Sought g w fs fp cs fp₁ fs₁ dev₁ w₁ cs₁ k) {w' : Sectors}
    {cs' : List Nat} (harrived : Arrived g w' fs' dev'
      { fp₁ with clust := clst, sclust := if fp₁.sclust = 0 then clst else fp₁.sclust } cs'
      ((k + 1) * g.csize))
    (hext : Extends g w₁ cs₁ w' cs') (hsame : ∀ n, ¬g.InFat n → w' n = w₁ n)
    (hkept : k + 1 < cs₁.length → w' = w₁ ∧ cs' = cs₁ ∧ (fs₁.wflag = false → fs'.wflag = false))
    (hsmall : (k + 1) * (g.csize * 512) < 2 ^ 32) :
    Sought g w fs fp cs { fp₁ with clust := clst, fptr := fp₁.fptr + g.csize * 512 } fs' dev' w' cs'
      (k + 1) := by
  have hplace : fp₁.fptr + g.csize * 512 = (k + 1) * (g.csize * 512) := by
    rw [h.fptr, Nat.add_mul, Nat.one_mul]
  rw [if_neg h.sclust_ne] at harrived
  refine ⟨⟨harrived.toSteady.move ?_ ?_ clst, harrived.has, harrived.clust⟩, hplace, h.base,
    h.ext.trans hext harrived.clusters, fun n hn => (hsame n hn).trans (h.same n hn), fun hk => ?_⟩
  · have hhas := harrived.has
    unfold FileHas at hhas
    rw [hplace, ← Nat.mul_assoc]
    exact Nat.mul_le_mul_right _ hhas.le
  · rwa [hplace]
  · obtain ⟨rfl, rfl, hclean⟩ := h.kept (by omega)
    obtain ⟨rfl, rfl, hclean'⟩ := hkept hk
    exact ⟨rfl, rfl, hclean' ∘ hclean.window, hclean.buffer⟩

theorem Sought.stay (h : Sought g w fs fp cs fp₁ fs₁ dev₁ w₁ cs₁ k)
    (hplaced : Placed g w₁ fs' dev' fp₁ cs₁) (hclean : fs₁.wflag = false → fs'.wflag = false) :
    Sought g w fs fp cs fp₁ fs' dev' w₁ cs₁ k :=
  ⟨⟨⟨hplaced, h.arrived.toLinked, h.arrived.noErr, h.arrived.buffer⟩, h.arrived.has,
    h.arrived.clust⟩, h.fptr, h.base, h.ext, h.same, fun hk => ⟨(h.kept hk).1, (h.kept hk).2.1,
    hclean ∘ (h.kept hk).2.2.window, (h.kept hk).2.2.buffer⟩⟩

theorem Sought.follow (h : Sought g w fs fp cs fp₁ fs₁ dev₁ w₁ cs₁ k) (hg : g.Sound)
    (hsmall : (k + 1) * (g.csize * 512) < 2 ^ 32)
    (hmore : fp.write = false → k + 1 < cs.length) :
    Ensures deviceStep (if fp₁.write = true then createChain fp₁.clust else getFat fp₁.clust) fs₁
      dev₁ (Followed g w fs fp cs fp₁ k) := by
  have harrived := h.arrived
  have hmode : fp₁.write = fp.write := by rw [h.base]
  have hlt : k < cs₁.length := Nat.lt_of_mul_lt_mul_right harrived.has
  have hclust : fp₁.clust = cs₁.getD k 0 := by
    have hthere := harrived.clust
    rwa [Nat.mul_div_cancel _ hg.csize_pos] at hthere
  have hcluster : g.Cluster fp₁.clust := by
    rw [hclust, List.getD_eq_getElem _ _ hlt]
    exact harrived.clusters _ (List.getElem_mem hlt)
  obtain ⟨v, hshows, hover⟩ := harrived.shows
  rw [ensures_ite, hmode]
  refine ⟨fun hwrite => ?_, fun hno => ?_⟩
  · have hread : ∀ {p : Prop}, fp.write = false → p := by
      rw [hwrite]
      simp
    apply (ensures_createChain hg hshows fp₁.clust).mono
    rintro clst fs₂ dev₂ ⟨v', hcreated⟩
    rcases harrived.toSteady.created hg hover (.inr ⟨hcluster, k, rfl, hlt, hclust⟩) hcreated with
      ⟨rfl, hplaced, ⟨hfull, hend⟩, hclean⟩ | ⟨hcluster', w', cs', hnext, hext, hsame, hkept⟩ |
      ⟨w', hbad, hplaced, hext⟩
    · exact .inl ⟨⟨rfl, hwrite⟩, w₁, cs₁, h.stay hplaced hclean, hfull,
        Nat.eq_of_mul_eq_mul_right hg.csize_pos hend⟩
    · exact .inr (.inl ⟨hcluster', w', cs', h.next hnext hext hsame
        (fun hk => hkept (Nat.mul_lt_mul_of_pos_right hk hg.csize_pos)) hsmall⟩)
    · exact .inr (.inr ⟨w', cs₁, hbad.imp_left fun hone => ⟨hone.1, hwrite, hone.2⟩, hplaced,
        h.ext.trans hext hplaced.clusters, hread⟩)
  · have hread : fp.write = false := by simpa using hno
    obtain ⟨rfl, rfl, -⟩ := h.kept (by have := hmore hread; omega)
    have hlen := hmore hread
    have hchain := (harrived.chain.resolve_left fun hempty => by
      rw [hempty.1] at hlt
      cases hlt).2
    apply (ensures_getFat hg hshows fp₁.clust).mono
    rintro clst fs₂ dev₂ ⟨hshows', -, hnear, hval, hclean⟩
    have hplaced := hover ▸ harrived.toPlaced.near hg hshows' hnear
    rw [harrived.toPlaced.fatValue hg hover hcluster, hclust, hchain.next hlen] at hval
    rcases hval with rfl | rfl
    · have hhas : FileHas g cs₁ ((k + 1) * g.csize) := Nat.mul_lt_mul_of_pos_right hlen hg.csize_pos
      refine .inr (.inl ⟨?_, w₁, cs₁, h.next ?_ (.refl w₁ cs₁) (fun _ _ => rfl)
        (fun _ => ⟨rfl, rfl, hclean⟩) hsmall⟩)
      · rw [List.getD_eq_getElem _ _ hlen]
        exact harrived.clusters _ (List.getElem_mem hlen)
      · rw [if_neg h.sclust_ne]
        refine ⟨⟨hplaced.set _ _ _, harrived.toLinked, harrived.noErr, harrived.buffer⟩, hhas, ?_⟩
        rw [Nat.mul_div_cancel _ hg.csize_pos]
    · exact .inr (.inr ⟨w₁, cs₁, .inr rfl, hplaced, h.ext, fun _ => ⟨rfl, rfl⟩⟩)

/-- The position is in cluster `k`, or at the end of the last one there was room for. -/
def Landed (g : Geometry) (w : Sectors) (fs : Fatfs) (fp : Fil) (cs : List Nat) (target : Nat)
    (r : Fil × Nat × Nat) (fs' : Fatfs) (dev' : Device) : Prop :=
  ∃ w' cs' k, Sought g w fs fp cs r.1 fs' dev' w' cs' k ∧ (0 < r.2.2 ∧ r.2.2 ≤ g.csize * 512) ∧
    k * (g.csize * 512) + r.2.2 ≤ target ∧
    (r.2.1 = r.1.clust ∧ k * (g.csize * 512) + r.2.2 = target ∨
      r.2.2 = g.csize * 512 ∧ (Full g w' ∧ k + 1 = cs'.length) ∧ fp.write = true)

theorem ensuresElse_seekLoop (hg : g.Sound) {fuel : Nat} (hfuel : ofs < fuel)
    (h : Sought g w fs fp cs fp₁ fs₁ dev₁ w₁ cs₁ k) (hofs : 0 < ofs)
    (htarget : k * (g.csize * 512) + ofs = target) (hsmall : target < 2 ^ 32)
    (hclip : fp.write = false → target ≤ cs.length * g.csize * 512) :
    EnsuresElse deviceStep (seekLoop fuel fp₁ fp₁.clust ofs) fs₁ dev₁ (Landed g w fs fp cs target)
      (Strayed g w fp cs) := by
  induction fuel generalizing fp₁ fs₁ dev₁ w₁ cs₁ k ofs with
  | zero => omega
  | succ fuel ih =>
    obtain ⟨v, hshows, hover⟩ := h.arrived.shows
    have hcsize : fs₁.csize = g.csize := congrArg Geometry.csize hshows.geometry
    have hnFatent : fs₁.nFatent = g.nFatent := congrArg Geometry.nFatent hshows.geometry
    have hmode : fp₁.write = fp.write := by rw [h.base]
    have hpos : 0 < g.csize * 512 := Nat.mul_pos hg.csize_pos (by decide)
    have hmul : (k + 1) * (g.csize * 512) = k * (g.csize * 512) + g.csize * 512 := by
      rw [Nat.add_mul, Nat.one_mul]
    have htests : ∀ clst fs' dev', Followed g w fs fp cs fp₁ k clst fs' dev' → g.csize * 512 < ofs →
        EnsuresElse deviceStep (if fp₁.write = true ∧ clst = 0 then pure (fp₁, clst, g.csize * 512)
          else if clst = diskError then abort .diskErr fp₁
          else if clst ≤ 1 ∨ g.nFatent ≤ clst then abort .intErr fp₁
          else seekLoop fuel { fp₁ with clust := clst, fptr := fp₁.fptr + g.csize * 512 } clst
            (ofs - g.csize * 512)) fs' dev' (Landed g w fs fp cs target) (Strayed g w fp cs) := by
      rintro clst fs' dev' (⟨⟨rfl, hwrite⟩, w', cs', hsought, hend⟩ |
        ⟨hcluster, w', cs', hsought⟩ | ⟨w', cs', hbad, hplaced, hext, hkept⟩) hfar
      · rw [if_pos ⟨hmode.trans hwrite, rfl⟩, ensuresElse_pure]
        exact ⟨w', cs', k, hsought, ⟨hpos, le_rfl⟩, by dsimp only; omega, .inr ⟨rfl, hend, hwrite⟩⟩
      · have hlow := hcluster.1
        have hhigh := hcluster.2
        have hend : g.nFatent < diskError := hg.nFatent_lt
        rw [if_neg (by omega), if_neg (by omega), if_neg (by omega)]
        exact ih (by omega) hsought (by omega) (by omega)
      · have hnone : ¬(fp₁.write = true ∧ clst = 0) := by
          rintro ⟨-, rfl⟩
          rcases hbad with ⟨hno, -⟩ | hno <;> cases hno
        rw [if_neg hnone]
        rcases hbad with ⟨rfl, hwrite, hreserved⟩ | rfl
        · rw [if_neg (by decide), if_pos (.inl le_rfl)]
          exact hplaced.strayed hext (fun hno => absurd (hwrite.symm.trans hno) (by decide)) h.base
            (.inr ⟨rfl, hreserved⟩)
        · rw [if_pos rfl]
          exact hplaced.strayed hext (fun hread => ⟨(hkept hread).1, (hkept hread).2, rfl⟩) h.base
            (.inl rfl)
    simp only [seekLoop, ensuresElse_bind, ensuresElse_get, ensuresElse_ite, ensuresElse_pure,
      ensuresElse_lift, hcsize, hnFatent]
    simp only [ensuresElse_ite, ensuresElse_pure] at htests
    refine ⟨fun hfar => ?_, fun hnear => ⟨w₁, cs₁, k, h, ⟨hofs, not_lt.mp hnear⟩, htarget.le,
      .inl ⟨rfl, htarget⟩⟩⟩
    have hfollow := h.follow hg (by omega) fun hread => by
      have hle := hclip hread
      rw [Nat.mul_assoc] at hle
      exact Nat.lt_of_mul_lt_mul_right (a := g.csize * 512) (by omega)
    rw [ensures_ite] at hfollow
    exact ⟨fun hwrite => (hfollow.1 hwrite).mono fun clst fs' dev' hnext => htests _ _ _ hnext hfar,
      fun hread => (hfollow.2 hread).mono fun clst fs' dev' hnext => htests _ _ _ hnext hfar⟩

end Follow

section Position
variable {g : Geometry} {w w₁ : Sectors} {fs fs₁ fs' : Fatfs} {dev dev₁ dev' : Device}
  {fp fp₁ fp' : Fil} {cs cs₁ : List Nat} {k ofs clst target : Nat}

structure Repositioned (g : Geometry) (w : Sectors) (fs : Fatfs) (fp : Fil) (cs : List Nat)
    (target : Nat) (fp' : Fil) (fs' : Fatfs) (w' : Sectors) (cs' : List Nat) : Prop where
  base : fp'.toFilBase = { fp.toFilBase with sclust := fp'.sclust }
  ext : Extends g w cs w' cs'
  same : ∀ n, ¬g.InFat n → w' n = w n
  kept : fp'.fptr ≤ fp.fsize → w' = w ∧ cs' = cs ∧ Rests fs fp.dirty fs' fp'.dirty
  reached : fp'.fptr ≤ target ∧
    (fp'.fptr < target → (Full g w' ∧ fp.fsize ≤ fp'.fptr) ∧ fp.write = true)

structure Aimed (g : Geometry) (w : Sectors) (fs : Fatfs) (fp : Fil) (cs : List Nat) (target : Nat)
    (r : Fil × Nat) (fs' : Fatfs) (dev' : Device) (w' : Sectors) (cs' : List Nat) : Prop
    extends Steady g w' fs' dev' r.1 cs', Repositioned g w fs fp cs target r.1 fs' w' cs' where
  inside : r.1.fptr ≤ cs'.length * g.csize * 512
  clust : r.1.fptr ≠ 0 → r.1.clust = cs'.getD ((r.1.fptr - 1) / 512 / g.csize) 0
  sect : r.1.fptr % 512 ≠ 0 → r.2 = fileSect g cs' (r.1.fptr / 512)

structure Settled (g : Geometry) (w : Sectors) (fs : Fatfs) (fp : Fil) (cs : List Nat)
    (target : Nat) (fp' : Fil) (fs' : Fatfs) (dev' : Device) (w' : Sectors) (cs' : List Nat) : Prop
    extends Repositioned g w fs fp cs target fp' fs' w' cs' where
  opened : Opened g w' fs' dev' fp'.grown cs'

theorem cluster_place {csize : Nat} (hofs : 0 < ofs) (hle : ofs ≤ csize * 512) :
    (k * (csize * 512) + ofs - 1) / 512 / csize = k := by
  have hpos : 0 < csize := by omega
  rw [Nat.div_div_eq_div_mul, Nat.mul_comm 512, Nat.add_sub_assoc hofs, Nat.mul_comm k,
    Nat.mul_add_div (by omega), Nat.div_eq_of_lt (by omega), Nat.add_zero]

theorem Landed.aim {r : Fil × Nat × Nat} (h : Landed g w fs fp cs target r fs₁ dev₁) (hg : g.Sound)
    (hsmall : target < 2 ^ 32) (hsize : fp.fsize ≤ cs.length * g.csize * 512) :
    EnsuresElse deviceStep (if r.2.2 % 512 = 0 then pure ({ r.1 with fptr := r.1.fptr + r.2.2 }, 0)
      else do
        let fs ← get
        let nsect := clust2sect fs.toGeometry r.2.1
        if nsect = 0 then abort .intErr { r.1 with fptr := r.1.fptr + r.2.2 }
        else pure ({ r.1 with fptr := r.1.fptr + r.2.2 }, u32 (nsect + r.2.2 / 512))) fs₁ dev₁
      (fun r fs' dev' => ∃ w' cs', Aimed g w fs fp cs target r fs' dev' w' cs')
      (Strayed g w fp cs) := by
  obtain ⟨fp₁, clst, ofs⟩ := r
  obtain ⟨w', cs', k, hsought, ⟨hofs, hle⟩, hreached, hwhere⟩ := h
  dsimp only at hsought hofs hle hreached hwhere ⊢
  have harrived := hsought.arrived
  obtain ⟨v, hshows, hover⟩ := harrived.shows
  have hfptr := hsought.fptr
  have hlt : k < cs'.length := Nat.lt_of_mul_lt_mul_right harrived.has
  have hclust : fp₁.clust = cs'.getD k 0 := by
    have hthere := harrived.clust
    rwa [Nat.mul_div_cancel _ hg.csize_pos] at hthere
  have hroom : k * (g.csize * 512) + ofs ≤ cs'.length * g.csize * 512 := by
    have hmul := Nat.mul_le_mul_right (g.csize * 512) hlt
    rw [Nat.succ_mul, ← Nat.mul_assoc cs'.length] at hmul
    omega
  have haimed : ∀ nsect, (ofs % 512 ≠ 0 → nsect = fileSect g cs' (k * g.csize + ofs / 512)) →
      Aimed g w fs fp cs target ({ fp₁ with fptr := fp₁.fptr + ofs }, nsect) fs₁ dev₁ w' cs' := by
    intro nsect hnsect
    rw [hfptr]
    refine ⟨harrived.toSteady.move hroom (by omega) _, ⟨hsought.base, hsought.ext, hsought.same,
      fun hin => hsought.kept ?_, hreached, fun hshort => ?_⟩, hroom, fun _ => ?_,
      fun hinside => ?_⟩
    · dsimp only at hin
      rw [Nat.mul_assoc] at hsize
      exact Nat.lt_of_mul_lt_mul_right (a := g.csize * 512) (by omega)
    · rcases hwhere with ⟨-, hthere⟩ | ⟨hwhole, ⟨hfull, hend⟩, hwrite⟩
      · exact absurd hthere hshort.ne
      · -- the end of the last cluster is behind the end of the file
        refine ⟨⟨hfull, ?_⟩, hwrite⟩
        have hold := Nat.mul_le_mul_right (g.csize * 512) hsought.ext.old.length_le
        rw [← hend, Nat.add_mul, Nat.one_mul, ← Nat.mul_assoc cs.length] at hold
        dsimp only
        omega
    · dsimp only
      rw [cluster_place hofs hle]
      exact hclust
    · dsimp only at hinside ⊢
      rw [← Nat.mul_assoc] at hinside ⊢
      rw [hnsect (by omega)]
      congr 1
      omega
  simp only [ensuresElse_ite, ensuresElse_bind, ensuresElse_get, ensuresElse_pure]
  refine ⟨fun hstart => ⟨w', cs', haimed 0 fun hno => absurd hstart hno⟩, fun hinside => ?_⟩
  -- where there was no room the offset is a whole cluster
  have hclst : clst = fp₁.clust := by
    rcases hwhere with ⟨hclst, -⟩ | ⟨rfl, -⟩
    · exact hclst
    · exact absurd (Nat.mul_mod_left ..) hinside
  have hsector : ofs / 512 < g.csize := by omega
  have hhas : FileHas g cs' (k * g.csize + ofs / 512) := by
    have hmul := Nat.mul_le_mul_right g.csize (Nat.succ_le_of_lt hlt)
    rw [Nat.succ_mul] at hmul
    unfold FileHas
    omega
  obtain ⟨hnonzero, hsect⟩ := clust2sect_fileSect hg harrived.clusters hhas
  rw [Nat.mul_comm k, Nat.mul_add_div hg.csize_pos, Nat.div_eq_of_lt hsector, Nat.add_zero,
    Nat.mul_add_mod, Nat.mod_eq_of_lt hsector, ← hclust, ← hclst, Nat.mul_comm] at hsect
  rw [Nat.mul_comm k, Nat.mul_add_div hg.csize_pos, Nat.div_eq_of_lt hsector, Nat.add_zero,
    ← hclust, ← hclst] at hnonzero
  rw [hshows.geometry]
  exact ⟨fun hno => absurd hno hnonzero, fun _ => ⟨w', cs', haimed _ fun _ => hsect⟩⟩

theorem ensuresElse_seekTo (hg : g.Sound) (h : Opened g w fs dev fp cs) (hsmall : target < 2 ^ 32)
    (hclip : fp.write = false → target ≤ fp.fsize) :
    EnsuresElse deviceStep (seekTo { fp with fptr := 0 } fp.fptr target) fs dev
      (fun r fs' dev' => ∃ w' cs', Aimed g w fs fp cs target r fs' dev' w' cs')
      (Strayed g w fp cs) := by
  rw [seekTo, ensuresElse_ite, ensuresElse_pure, ensuresElse_bind]
  refine ⟨fun hzero => ⟨w, cs, h.toSteady.move (Nat.zero_le _) (by decide) _, ⟨rfl, .refl w cs,
    fun _ _ => rfl, fun _ => ⟨rfl, rfl, id, id⟩, Nat.zero_le _, fun hlt => ?_⟩, Nat.zero_le _,
    fun hno => absurd rfl hno, fun hno => absurd (Nat.zero_mod _) hno⟩, fun hpos => ?_⟩
  · dsimp only at hlt
    omega
  apply (ensuresElse_seekStart hg h (Nat.pos_of_ne_zero hpos) hclip).mono _
    fun _ _ _ hstrayed => hstrayed
  rintro ⟨fp₁, clst, ofs⟩ fs₁ dev₁
    (⟨⟨hnone, ⟨hfull, hlen⟩, hwrite⟩, hsteady, hfptr, hbase, hclean⟩ |
    ⟨w₁, cs₁, k, hsought, hclst, hofs, htarget⟩)
  · dsimp only at hnone hfptr hbase hsteady
    simp only [hnone, if_true, ensuresElse_pure]
    refine ⟨w, cs, hsteady, ⟨?_, .refl w cs, fun _ _ => rfl,
      fun _ => ⟨rfl, rfl, hclean⟩, by simp [hfptr],
      fun _ => ⟨⟨hfull, hlen.trans_le (Nat.zero_le _)⟩, hwrite⟩⟩, by simp [hfptr],
      fun hno => absurd hfptr hno, fun hno => absurd (by simp [hfptr]) hno⟩
    simp only [hbase]
  · dsimp only at hclst hofs htarget hsought
    subst hclst
    simp only [if_neg hsought.arrived.ne_zero]
    rw [ensuresElse_bind]
    apply (ensuresElse_seekLoop hg (Nat.lt_succ_self _) hsought hofs htarget hsmall fun hread =>
      (hclip hread).trans h.size).mono _ fun _ _ _ hstrayed => hstrayed
    rintro ⟨fp₂, clst, ofs⟩ fs₂ dev₂ hlanded
    exact hlanded.aim hg hsmall h.size

theorem Aimed.settle {r : Fil × Nat} {w' : Sectors} {cs' : List Nat}
    (h : Aimed g w fs fp cs target r fs₁ dev₁ w' cs') (hplaced : Placed g w' fs' dev' fp' cs')
    (hfil : ∃ dirty buf dsect, fp' = { r.1 with dirty := dirty, buf := buf, dsect := dsect })
    (hclean : Rests fs₁ r.1.dirty fs' fp'.dirty)
    (hinBuf : fp'.fptr % 512 ≠ 0 → fp'.dsect = fileSect g cs' (fp'.fptr / 512))
    (hbuffer : fp'.dsect ≠ 0 →
      (∃ q, FileHas g cs' q ∧ fp'.dsect = fileSect g cs' q) ∧ fp'.buf = w' fp'.dsect) :
    Settled g w fs fp cs target fp' fs' dev' w' cs' := by
  obtain ⟨dirty, buf, dsect, rfl⟩ := hfil
  refine ⟨⟨h.base, h.ext, h.same, fun hin => ⟨(h.kept hin).1, (h.kept hin).2.1,
    (h.kept hin).2.2.trans hclean⟩, h.reached⟩, Placed.grown.mpr hplaced, h.toLinked, h.noErr,
    ?_, h.clust, hinBuf, hbuffer⟩
  simp only [Fil.grown]
  split <;> omega

theorem ensuresElse_seek (hg : g.Sound) (h : Opened g w fs dev fp cs) (hsmall : target < 2 ^ 32)
    (hclip : fp.write = false → target ≤ fp.fsize) :
    EnsuresElse deviceStep (seek fp target) fs dev
      (fun fp' fs' dev' => ∃ w' cs', Settled g w fs fp cs target fp' fs' dev' w' cs')
      (Strayed g w fp cs) := by
  rw [seek, ensuresElse_bind]
  apply (ensuresElse_seekTo hg h hsmall hclip).mono _ fun _ _ _ hstrayed => hstrayed
  rintro ⟨fp₁, nsect⟩ fs₁ dev₁ ⟨w', cs', haimed⟩
  have hplaced := haimed.toPlaced
  rw [ensuresElse_ite, ensuresElse_pure]
  refine ⟨fun hstart => ⟨w', cs', haimed.settle hplaced ⟨_, _, _, rfl⟩ (.refl _ _)
    (fun hno => absurd hstart hno) haimed.buffer⟩, fun hinside => ?_⟩
  have hsect := haimed.sect hinside
  have hroom := haimed.inside
  dsimp only at hinside hsect hroom hplaced ⊢
  have hq : FileHas g cs' (fp₁.fptr / 512) := by
    unfold FileHas
    omega
  rw [hsect]
  apply (ensuresElse_fillBuf hg hplaced hq fun hthere => ?_).mono
  · rintro fp₂ fs₂ dev₂ ⟨hfilled, ⟨dirty, rfl, hdirty⟩, rfl⟩
    exact ⟨w', cs', haimed.settle hfilled ⟨_, _, _, rfl⟩ ⟨id, hdirty⟩ (fun _ => rfl)
      fun _ => ⟨⟨_, hq, rfl⟩, rfl⟩⟩
  · intro e fs₂ dev₂ habort
    have hkept : fp.write = false → w' = w ∧ cs' = cs ∧ e.1 = .diskErr := fun hread =>
      have hin := haimed.kept (haimed.reached.1.trans (hclip hread))
      ⟨hin.1, hin.2.1, habort.failed.1⟩
    refine ⟨⟨w', cs', habort.placed, haimed.ext, hkept, .inl habort.failed.1⟩, habort.failed.2, ?_⟩
    rw [habort.base]
    exact haimed.base
  · have hbuf := (haimed.buffer ?_).2
    · rwa [← hthere]
    · dsimp only
      rw [hthere]
      exact (hplaced.data hg hq).pos hg

/-- What `f_lseek` comes to: the position asked for, or as near to it as there is room for. In
read mode it is in the file, and nothing changes. -/
structure HasSought (g : Geometry) (w : Sectors) (fs : Fatfs) (fp : Fil) (cs : List Nat) (ofs : Nat)
    (r : FResult × Fil) (fs' : Fatfs) (dev' : Device) (w' : Sectors) (cs' : List Nat) : Prop where
  ext : Extends g w cs w' cs'
  kept : fp.write = false → w' = w ∧ cs' = cs
  base : r.2.toFilBase = { fp.toFilBase with
    sclust := r.2.sclust, fsize := r.2.fsize, written := r.2.written }
  outcome :
    r.1 = .ok ∧ Opened g w' fs' dev' r.2 cs' ∧ r.2.fptr ≤ ofs ∧
      (fp.write = false → r.2.fptr = min ofs fp.fsize) ∧
      (fp.write = true → r.2.fptr < ofs → Full g w' ∧ fp.fsize ≤ r.2.fptr) ∧
      r.2.fsize = max fp.fsize r.2.fptr ∧
      r.2.written = (fp.written || decide (fp.fsize < r.2.fptr)) ∧
      (r.2.fptr ≤ fp.fsize → w' = w ∧ cs' = cs ∧ Rests fs fp.dirty fs' r.2.dirty) ∧
      (∀ i < fp.fsize, fileByte g cs' w' i = fileByte g cs w i) ∨
    (Fatal g w' r.1 ∧ (fp.write = false → r.1 = .diskErr)) ∧ r.2.err = r.1 ∧
      Placed g w' fs' dev' r.2 cs' ∧
      r.2.fsize = fp.fsize ∧ r.2.written = fp.written

theorem ensures_fLseek (hg : g.Sound) (h : Opened g w fs dev fp cs) (hatt : fp.attached = true)
    (hofs : ofs < 2 ^ 32) :
    Ensures deviceStep (fp.fLseek ofs) fs dev (fun r fs' dev' =>
      ∃ w' cs', HasSought g w fs fp cs ofs r fs' dev' w' cs') := by
  have hlen := h.small
  generalize htarget : (if fp.fsize < ofs ∧ fp.write = false then fp.fsize else ofs) = target
  have hclip : (fp.write = false → target = min ofs fp.fsize) ∧
      (fp.write = true → target = ofs) ∧ target ≤ ofs := by
    rw [← htarget]
    refine ⟨fun hread => ?_, fun hwrite => ?_, ?_⟩
    · simp only [hread, and_true]
      split <;> omega
    · simp [hwrite]
    · split <;> omega
  obtain ⟨hread, hwrite, hle⟩ := hclip
  simp only [Fil.fLseek, ensures_bind, h.validate hg hatt, ensures_ite, h.noErr, htarget, ne_eq,
    not_true_eq_false, false_imp_iff, true_and, not_false_eq_true, true_imp_iff]
  apply Ensures.mono (ensuresElse_seek hg h (by omega) fun hno => by have := hread hno; omega)
  rintro _ fs₁ dev₁ (⟨fp₁, rfl, w', cs', hsettled⟩ | ⟨e, rfl, hstrayed⟩)
  · have hbase := hsettled.base
    have hfsize : fp₁.fsize = fp.fsize := by rw [hbase]
    have hflag : fp₁.written = fp.written := by rw [hbase]
    have hgrown : fp₁.grown.fsize = max fp.fsize fp₁.fptr := by
      simp only [Fil.grown, hfsize]
      split <;> omega
    obtain ⟨hreached, hshort⟩ := hsettled.reached
    have hopened := hsettled.opened
    refine (ensures_pure _).mpr ⟨w', cs', hsettled.ext, fun hno => ?_, ?_,
      .inl ⟨rfl, ⟨⟨hopened.shows, hopened.id, hopened.clusters, hopened.nodup,
      hopened.loaded, hopened.apart⟩, ⟨hopened.chain, hopened.size, hopened.small⟩, hopened.noErr,
      hopened.fptr, hopened.clust, hopened.inBuf, hopened.buffer⟩, hreached.trans hle,
      fun hno => ?_, fun hyes hlt => ?_, hgrown, ?_, hsettled.kept, fun i hi => ?_⟩⟩
    · have hin := hsettled.kept (by have := hread hno; omega)
      exact ⟨hin.1, hin.2.1⟩
    · exact congrArg (fun base : FilBase => { base with
        fsize := fp₁.grown.fsize, written := fp₁.written || decide (fp₁.fsize < fp₁.fptr) }) hbase
    · by_contra hne
      have hlt : fp₁.fptr < target := lt_of_le_of_ne hreached (by rw [hread hno]; exact hne)
      simpa [hno] using (hshort hlt).2
    · exact (hshort (by rw [hwrite hyes]; exact hlt)).1
    · rw [hflag, hfsize]
      rfl
    · have hsize := h.size
      have hq : FileHas g cs (i / 512) := by
        unfold FileHas
        omega
      rw [fileByte, fileByte, (fileSect_old hsettled.ext.old hq).2,
        hsettled.same _ ((h.data hg hq).not_inFat hg)]
  · obtain ⟨⟨w', cs', hplaced, hext, hkept, hfatal⟩, hfailed, hbase⟩ := hstrayed
    refine (ensures_pure _).mpr ⟨w', cs', hext, fun hno => ⟨(hkept hno).1, (hkept hno).2.1⟩, ?_,
      .inr ⟨⟨hfatal, fun hno => (hkept hno).2.2⟩, hfailed, hplaced, ?_, ?_⟩⟩
    · rw [hbase]
    · rw [hbase]
    · rw [hbase]

end Position

end FtpServer

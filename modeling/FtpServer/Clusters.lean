import FtpServer.Fat
import FtpServer.Library.LinkedList

/-! Chains of clusters in the FAT: how `create_chain` finds a free cluster and links it to the
end of a chain, and how `remove_chain` frees a chain link by link. -/

namespace FtpServer
open Interaction CString Packed Transition

section Source

/-- The loop of `create_chain`, behind cluster `ncl`: a free cluster, or what to return. -/
def searchFree (scl : Nat) : Nat → Nat → FatFs (Except Nat Nat)
  | 0, _ => stuck
  | fuel + 1, ncl => do
    let fs ← get
    if fs.nFatent ≤ ncl + 1 ∧ scl < 2 then pure (.error 0)
    else do
      let ncl := if fs.nFatent ≤ ncl + 1 then 2 else ncl + 1
      let cs ← getFat ncl
      if cs = 0 then pure (.ok ncl)
      else if cs = diskError ∨ cs = 1 then pure (.error cs)
      else if ncl = scl then pure (.error 0)
      else searchFree scl fuel ncl

/-- `fs->free_clust` goes up by `n`, or down by `2 ^ 32 - n`, if it is known. -/
def countFree (n : Nat) : FatFs Unit :=
  modify fun fs =>
    if fs.freeClust ≠ 0xFFFFFFFF then
      { fs with freeClust := u32 (fs.freeClust + n), fsiFlag := fs.fsiFlag ||| 1 }
    else fs

def allocate (clst scl : Nat) : FatFs Nat := do
  let fs ← get
  let found ← searchFree scl fs.nFatent scl
  match found with
  | .error code => pure code
  | .ok ncl => do
    let res ← putFat ncl 0x0FFFFFFF
    let res ← if res = .ok ∧ clst ≠ 0 then putFat clst ncl else pure res
    if res = .ok then do
      modify fun fs => { fs with lastClust := ncl }
      countFree (2 ^ 32 - 1)
      pure ncl
    else pure (if res = .diskErr then diskError else 1)

def createChain (clst : Nat) : FatFs Nat := do
  let fs ← get
  if clst = 0 then
    allocate clst (if fs.lastClust = 0 ∨ fs.nFatent ≤ fs.lastClust then 1 else fs.lastClust)
  else do
    let cs ← getFat clst
    if cs < 2 then pure 1
    else if cs = diskError then pure cs
    else if cs < fs.nFatent then pure cs
    else allocate clst clst

/-- The loop of `remove_chain`. -/
def freeChain : Nat → Nat → FatFs FResult
  | 0, _ => stuck
  | fuel + 1, clst => do
    let fs ← get
    if clst < fs.nFatent then do
      let nxt ← getFat clst
      if nxt = 0 then pure .ok
      else if nxt = 1 then pure .intErr
      else if nxt = diskError then pure .diskErr
      else do
        let res ← putFat clst 0
        if res ≠ .ok then pure res
        else do
          countFree 1
          freeChain fuel nxt
    else pure .ok

def removeChain (clst : Nat) : FatFs FResult := do
  let fs ← get
  if clst < 2 ∨ fs.nFatent ≤ clst then pure .intErr
  else freeChain fs.nFatent clst

end Source

section Search
variable {g : Geometry} {v : Sectors} {fs : Fatfs} {dev : Device}

def Geometry.Cluster (g : Geometry) (c : Nat) : Prop := 2 ≤ c ∧ c < g.nFatent

theorem fatValue_of_cluster {c : Nat} (hc : g.Cluster c) :
    fatValue g (fatMemory g v) c = g.table v c := by
  have hin : ¬(c < 2 ∨ g.nFatent ≤ c) := by
    have hlow := hc.1
    have hhigh := hc.2
    omega
  exact if_neg hin

theorem table_ne_diskError (hg : g.Sound) (c : Nat) : g.table v c ≠ diskError := by
  have hle : tableEntry g.fsType (fatMemory g v) c ≤ endMark g.fsType :=
    tableEntry_le g.fsType hg.mounted
  intro heq
  have hlt : endMark g.fsType < diskError := by
    cases g.fsType <;> decide
  rw [Geometry.table] at heq
  omega

theorem Geometry.Sound.nFatent_lt (hg : g.Sound) : g.nFatent < 0xFFFFFFFF := by
  have hmarks := hg.marks
  have hlt : endMark g.fsType < 0xFFFFFFFF := by
    cases g.fsType <;> decide
  omega

def Visited (scl ncl c : Nat) : Prop := if scl ≤ ncl then scl < c ∧ c ≤ ncl else scl < c ∨ c ≤ ncl

structure Searched (g : Geometry) (v : Sectors) (fs : Fatfs) (found : Except Nat Nat)
    (fs' : Fatfs) (dev' : Device) : Prop where
  shows : Presents g v fs' dev'
  info : fs'.toFsInfo = fs.toFsInfo
  near : g.Near fs fs'
  outcome :
    (∃ ncl, found = .ok ncl ∧ g.Cluster ncl ∧ g.table v ncl = 0) ∨
    found = .error 0 ∧ (∀ c, g.Cluster c → g.table v c ≠ 0) ∨
    found = .error 1 ∧ (∃ c, g.Cluster c ∧ g.table v c = 1) ∨
    found = .error diskError
  clean : fs.wflag = false → fs'.wflag = false

theorem ensures_searchFree (hg : g.Sound) (h : Presents g v fs dev) {scl : Nat}
    (hscl : 1 ≤ scl ∧ scl < g.nFatent) {fuel ncl : Nat} (hncl : 1 ≤ ncl ∧ ncl < g.nFatent)
    (hfuel : (if scl ≤ ncl then g.nFatent - 1 - ncl + scl else scl - ncl) ≤ fuel)
    (hvisited : ∀ c, g.Cluster c → Visited scl ncl c → g.table v c ≠ 0) :
    Ensures deviceStep (searchFree scl fuel ncl) fs dev (Searched g v fs) := by
  induction fuel generalizing fs dev ncl with
  | zero =>
    split at hfuel <;> omega
  | succ fuel ih =>
    have hgeom := h.geometry
    have hn : fs.nFatent = g.nFatent := congrArg Geometry.nFatent hgeom
    simp only [searchFree, ensures_bind, ensures_get, ensures_ite, ensures_pure, hn]
    refine ⟨fun hwrap => ⟨h, rfl, .inl rfl, .inr (.inl ⟨rfl, fun c hc => ?_⟩), id⟩,
      fun hnext => ?_⟩
    · apply hvisited c hc
      have hlow := hc.1
      have hhigh := hc.2
      rw [Visited, if_pos (by omega)]
      omega
    · generalize hncl' : (if g.nFatent ≤ ncl + 1 then 2 else ncl + 1) = ncl'
      have hcluster : g.Cluster ncl' := by
        rw [Geometry.Cluster, ← hncl']
        split <;> omega
      have hat : ∀ c, g.Cluster c → Visited scl ncl' c → Visited scl ncl c ∨ c = ncl' := by
        intro c hc hv
        have hlow := hc.1
        have hhigh := hc.2
        simp only [Visited] at hv ⊢
        split at hncl' <;> split at hv <;> split <;> omega
      apply (ensures_getFat hg h ncl').mono
      rintro cs fs₁ dev₁ ⟨hshows, hinfo, hnear, hval, hclean⟩
      rw [fatValue_of_cluster hcluster] at hval
      have hseen : g.table v ncl' ≠ 0 → ∀ c, g.Cluster c → Visited scl ncl' c →
          g.table v c ≠ 0 := by
        intro hne c hc hv
        rcases hat c hc hv with hold | rfl
        · exact hvisited c hc hold
        · exact hne
      refine ⟨fun hfree => ?_, fun hused => ⟨fun hstop => ?_, fun hgo => ?_⟩⟩
      · refine ⟨hshows, hinfo, hnear, .inl ⟨ncl', rfl, hcluster, ?_⟩, hclean⟩
        rcases hval with hval | hval
        · exact hval.symm.trans hfree
        · cases hval.symm.trans hfree
      · refine ⟨hshows, hinfo, hnear, .inr (.inr ?_), hclean⟩
        rcases hval with hval | rfl
        · rcases hstop with rfl | rfl
          · exact absurd hval.symm (table_ne_diskError hg ncl')
          · exact .inl ⟨rfl, ncl', hcluster, hval.symm⟩
        · exact .inr rfl
      · obtain ⟨hno, hone⟩ : cs ≠ diskError ∧ cs ≠ 1 := not_or.mp hgo
        obtain rfl := hval.resolve_right hno
        refine ⟨fun hend => ⟨hshows, hinfo, hnear, .inr (.inl ⟨rfl, fun c hc => ?_⟩), hclean⟩,
          fun hmore => ?_⟩
        · by_cases hlast : c = ncl'
          · exact hlast ▸ hused
          · apply hvisited c hc
            have hlow := hc.1
            have hhigh := hc.2
            simp only [Visited]
            split at hncl' <;> split <;> omega
        · have hlow := hcluster.1
          have hhigh := hcluster.2
          apply (ih hshows ⟨by omega, hhigh⟩ ?_ (hseen hused)).mono
          · rintro found fs₂ dev₂ ⟨hshows', hinfo', hnear', houtcome, hclean'⟩
            exact ⟨hshows', hinfo'.trans hinfo, hnear.trans hnear', houtcome, hclean' ∘ hclean⟩
          · split at hncl' <;> split at hfuel <;> split <;> omega

end Search

section Create
variable {g : Geometry} {v : Sectors} {fs : Fatfs} {dev : Device} {clst scl : Nat}

def freeAfter (info : FsInfo) (n : Nat) : Nat :=
  if info.freeClust ≠ 0xFFFFFFFF then u32 (info.freeClust + n) else info.freeClust

theorem Presents.count (h : Presents g v fs dev) (info : FsInfo) :
    Presents g v { fs with toFsInfo := info } dev :=
  ⟨h.geometry, h.win, h.device, h.dirty, h.mirrored⟩

theorem ensures_countFree (n : Nat) {post : Unit → Fatfs → Device → Prop}
    (h : ∀ flag, post () { fs with freeClust := freeAfter fs.toFsInfo n, fsiFlag := flag } dev) :
    Ensures deviceStep (countFree n) fs dev post := by
  simp only [countFree, ensures_modify]
  unfold freeAfter at h
  split
  · rename_i hknown
    simp only [hknown, not_false_eq_true, if_true, ne_eq] at h
    exact h _
  · rename_i hunknown
    simp only [hunknown, if_false] at h
    exact h fs.fsiFlag

/-- What comes of `create_chain`. A cluster that was in use, other than the one that the new
one is linked to, keeps its entry in any case. -/
structure Created (g : Geometry) (v v' : Sectors) (fs : Fatfs) (clst r : Nat) (fs' : Fatfs)
    (dev' : Device) : Prop where
  shows : Presents g v' fs' dev'
  near : g.Near fs fs'
  outside : ∀ n, ¬g.InFat n → v' n = v n
  kept : ∀ k, k ≠ clst → g.table v k ≠ 0 → g.table v' k = g.table v k
  used : ∀ k, g.table v k ≠ 0 → g.table v' k ≠ 0
  outcome :
    (g.Cluster r ∧ g.table v r = 0 ∧ g.InFat fs'.winsect ∧
      (clst ≠ 0 → g.Cluster clst ∧ g.nFatent ≤ g.table v clst) ∧
      g.table v' = (if clst = 0 then id else fun t => Function.update t clst r)
        (Function.update (g.table v) r (endMark g.fsType)) ∧
      fs'.lastClust = r ∧ fs'.freeClust = freeAfter fs.toFsInfo (2 ^ 32 - 1)) ∨
    (g.Cluster clst ∧ r = g.table v clst ∧ g.Cluster r ∧ v' = v ∧ fs'.toFsInfo = fs.toFsInfo) ∨
    (r = 0 ∧ ((∀ c, g.Cluster c → g.table v c ≠ 0) ∧ (clst ≠ 0 → g.nFatent ≤ g.table v clst)) ∧
      v' = v ∧ fs'.toFsInfo = fs.toFsInfo) ∨
    (r = 1 ∧ ((∃ c, g.Cluster c ∧ g.table v c = 1) ∨
      clst ≠ 0 ∧ fatValue g (fatMemory g v) clst < 2) ∧ v' = v ∧ fs'.toFsInfo = fs.toFsInfo) ∨
    (r = diskError ∧ fs'.toFsInfo = fs.toFsInfo)
  clean : r ≠ diskError → (g.Cluster r → g.table v r ≠ 0) → fs.wflag = false → fs'.wflag = false

theorem mark_mod (t : FsType) : 0x0FFFFFFF % (endMark t + 1) = endMark t := by
  cases t <;> rfl

theorem link_mod (hg : g.Sound) {c : Nat} (hc : g.Cluster c) : c % (endMark g.fsType + 1) = c :=
  Nat.mod_eq_of_lt (Nat.lt_succ_of_le (hc.2.le.trans hg.marks))

theorem ensures_allocate (hg : g.Sound) (h : Presents g v fs dev) (hscl : 1 ≤ scl ∧ scl < g.nFatent)
    (hclst : clst = 0 ∨ g.Cluster clst ∧ g.nFatent ≤ g.table v clst) :
    Ensures deviceStep (allocate clst scl) fs dev (fun r fs' dev' =>
      ∃ v', Created g v v' fs clst r fs' dev') := by
  have hn : fs.nFatent = g.nFatent := congrArg Geometry.nFatent h.geometry
  simp only [allocate, ensures_bind, ensures_get, hn]
  apply (ensures_searchFree hg h hscl hscl ?_ ?_).mono
  · rintro found fs₁ dev₁ ⟨hshows, hinfo, hnear, ⟨ncl, rfl, hncl, hfree⟩ | ⟨rfl, hfull⟩ |
      ⟨rfl, hbad⟩ | rfl, hclean⟩
    · -- the search has ended at a free cluster
      simp only [ensures_bind]
      apply (ensures_putFat hg hshows ncl 0x0FFFFFFF).mono
      rintro res fs₂ dev₂ ⟨w, hmark⟩
      have hkept : ∀ k, k ≠ clst → g.table v k ≠ 0 → g.table w k = g.table v k := by
        intro k _ hused
        exact hmark.others k fun heq => hused (heq ▸ hfree)
      have hused : ∀ k, g.table v k ≠ 0 → g.table w k ≠ 0 := by
        intro k hk
        rwa [hmark.others k fun heq => hk (heq ▸ hfree)]
      have houtside := hmark.outside
      have hinfo' := hmark.info.trans hinfo
      have hnear' := hnear.trans hmark.near
      rcases hmark.outcome with ⟨rfl, -, hfat, -⟩ | ⟨rfl, -⟩ | ⟨rfl, hno, -⟩
      · have htable := hmark.table hg
        rw [mark_mod] at htable
        rcases hclst with rfl | ⟨hclst, hend⟩
        · simp only [ne_eq, not_true_eq_false, and_false, if_false, if_true, ensures_bind,
            ensures_modify, ensures_pure]
          apply ensures_countFree
          intro flag
          refine ⟨w, hmark.shows.count _, hnear', houtside, hkept, hused,
            .inl ⟨hncl, hfree, hfat, fun hno => absurd rfl hno, htable, rfl, ?_⟩,
            fun _ hused => absurd hfree (hused hncl)⟩
          simp only [freeAfter, ← hinfo']
        · have hpos : clst ≠ 0 := by
            have hlow := hclst.1
            omega
          simp only [ne_eq, hpos, not_false_eq_true, and_true, if_true, ensures_bind]
          apply (ensures_putFat hg hmark.shows clst ncl).mono
          rintro res fs₃ dev₃ ⟨v', hlink⟩
          have hkept' : ∀ k, k ≠ clst → g.table v k ≠ 0 → g.table v' k = g.table v k :=
            fun k hk hused => (hlink.others k hk).trans (hkept k hk hused)
          have hused' : ∀ k, g.table v k ≠ 0 → g.table v' k ≠ 0 := by
            intro k hk
            by_cases heq : k = clst
            · have hsame := hmark.others clst fun hno => hk (heq ▸ hno ▸ hfree)
              have hless := hncl.2.trans_le hend
              rw [heq]
              exact hlink.used hncl.1 (hsame ▸ hless)
            · rw [hlink.others k heq]
              exact hused k hk
          have houtside' : ∀ n, ¬g.InFat n → v' n = v n :=
            fun n hn => (hlink.outside n hn).trans (houtside n hn)
          have hinfo'' := hlink.info.trans hinfo'
          have hnear'' := hnear'.trans hlink.near
          rcases hlink.outcome with ⟨rfl, -, hfat', -⟩ | ⟨rfl, -⟩ | ⟨rfl, hno, -⟩
          · have htable' := hlink.table hg
            rw [link_mod hg hncl, htable] at htable'
            simp only [if_true, ensures_bind, ensures_modify]
            apply ensures_countFree
            intro flag
            refine (ensures_pure _).mpr ⟨v', hlink.shows.count _, hnear'', houtside', hkept',
              hused',
              .inl ⟨hncl, hfree, hfat', fun _ => ⟨hclst, hend⟩, ?_, rfl, ?_⟩,
              fun _ hused => absurd hfree (hused hncl)⟩
            · rw [htable', if_neg hpos]
            · simp only [freeAfter, ← hinfo'']
          · exact (ensures_pure _).mpr ⟨v', hlink.shows, hnear'', houtside', hkept', hused',
              .inr (.inr (.inr (.inr ⟨if_pos rfl, hinfo''⟩))), fun hno => absurd (if_pos rfl) hno⟩
          · exfalso
            have hlow := hclst.1
            have hhigh := hclst.2
            omega
      · exact (ensures_pure _).mpr ⟨w, hmark.shows, hnear', houtside, hkept, hused,
          .inr (.inr (.inr (.inr ⟨if_pos rfl, hinfo'⟩))), fun hno => absurd (if_pos rfl) hno⟩
      · exfalso
        have hlow := hncl.1
        have hhigh := hncl.2
        omega
    · exact (ensures_pure _).mpr ⟨v, hshows, hnear, fun _ _ => rfl, fun _ _ _ => rfl, fun _ => id,
        .inr (.inr (.inl ⟨rfl, ⟨hfull, fun hpos => (hclst.resolve_left hpos).2⟩, rfl, hinfo⟩)),
        fun _ _ => hclean⟩
    · exact (ensures_pure _).mpr ⟨v, hshows, hnear, fun _ _ => rfl, fun _ _ _ => rfl, fun _ => id,
        .inr (.inr (.inr (.inl ⟨rfl, .inl hbad, rfl, hinfo⟩))), fun _ _ => hclean⟩
    · exact (ensures_pure _).mpr ⟨v, hshows, hnear, fun _ _ => rfl, fun _ _ _ => rfl, fun _ => id,
        .inr (.inr (.inr (.inr ⟨rfl, hinfo⟩))), fun _ _ => hclean⟩
  · rw [if_pos le_rfl]
    omega
  · intro c hc hvisited
    rw [Visited, if_pos le_rfl] at hvisited
    omega

theorem cluster_of_fatValue (h : 2 ≤ fatValue g (fatMemory g v) clst) : g.Cluster clst := by
  unfold fatValue at h
  split at h
  · omega
  · rename_i hin
    exact ⟨by omega, by omega⟩

theorem ensures_createChain (hg : g.Sound) (h : Presents g v fs dev) (clst : Nat) :
    Ensures deviceStep (createChain clst) fs dev (fun r fs' dev' =>
      ∃ v', Created g v v' fs clst r fs' dev') := by
  have hn : fs.nFatent = g.nFatent := congrArg Geometry.nFatent h.geometry
  have hsome := hg.nonempty
  simp only [createChain, ensures_bind, ensures_get, ensures_ite, ensures_pure, hn]
  refine ⟨fun hnew => ?_, fun hold => ?_⟩
  · apply ensures_allocate hg h _ (.inl hnew)
    split <;> omega
  · apply (ensures_getFat hg h clst).mono
    rintro cs fs₁ dev₁ ⟨hshows, hinfo, hnear, hval, hclean⟩
    refine ⟨fun hbad => ?_, fun hgood => ⟨fun hfailed => ?_, fun hread =>
      ⟨fun hnext => ?_, fun hend => ?_⟩⟩⟩
    · refine ⟨v, hshows, hnear, fun _ _ => rfl, fun _ _ _ => rfl, fun _ => id,
        .inr (.inr (.inr (.inl ⟨rfl, .inr ⟨hold, ?_⟩, rfl, hinfo⟩))), fun _ _ => hclean⟩
      rcases hval with rfl | rfl
      · exact hbad
      · exact absurd hbad (by decide)
    · exact ⟨v, hshows, hnear, fun _ _ => rfl, fun _ _ _ => rfl, fun _ => id,
        .inr (.inr (.inr (.inr ⟨hfailed, hinfo⟩))), fun _ _ => hclean⟩
    · obtain rfl := hval.resolve_right hread
      have hcluster : g.Cluster clst := cluster_of_fatValue (not_lt.mp hgood)
      have hn' : fs₁.nFatent = g.nFatent := congrArg Geometry.nFatent hshows.geometry
      exact ⟨v, hshows, hnear, fun _ _ => rfl, fun _ _ _ => rfl, fun _ => id,
        .inr (.inl ⟨hcluster, fatValue_of_cluster hcluster, ⟨not_lt.mp hgood, by omega⟩, rfl,
        hinfo⟩), fun _ _ => hclean⟩
    · obtain rfl := hval.resolve_right hread
      have hcluster : g.Cluster clst := cluster_of_fatValue (not_lt.mp hgood)
      have hlow := hcluster.1
      rw [fatValue_of_cluster hcluster] at hend
      apply (ensures_allocate hg hshows ⟨by omega, hcluster.2⟩
        (.inr ⟨hcluster, not_lt.mp hend⟩)).mono
      rintro r fs₂ dev₂ ⟨v', hshows', hnear', houtside, hkept, hused, houtcome, hclean'⟩
      rw [hinfo] at houtcome
      exact ⟨v', hshows', hnear.trans hnear', houtside, hkept, hused, houtcome, fun hr hnew =>
        hclean' hr hnew ∘ hclean⟩

end Create

section Chains
variable {g : Geometry} {t t' : Nat → Nat} {c first last r : Nat} {cs : List Nat}

/-- The FAT as a memory of linked lists: a cluster in use leads to the next one. -/
def clusterHeap (g : Geometry) (t : Nat → Nat) : LinkedList.Heap Nat Unit := fun c =>
  if (2 ≤ c ∧ c < g.nFatent) ∧ t c ≠ 0 then
    some ⟨(), if t c < g.nFatent then some (t c) else none⟩
  else none

def clusterPtr (g : Geometry) (c : Nat) : Option Nat := if c < g.nFatent then some c else none

/-- `c` leads through the clusters `cs`, the last of which has an end mark. -/
def Chain (g : Geometry) (t : Nat → Nat) (c : Nat) (cs : List Nat) : Prop :=
  LinkedList.Chain (clusterHeap g t) (clusterPtr g c) (cs.map (·, ()))

@[simp] theorem addrs_clusters (cs : List Nat) :
    LinkedList.addrs (cs.map (·, ())) = cs := by
  rw [LinkedList.addrs, List.map_map]
  exact List.map_id cs

theorem clusterHeap_eq_some {next : Option Nat} :
    clusterHeap g t c = some ⟨(), next⟩ ↔ g.Cluster c ∧ t c ≠ 0 ∧ clusterPtr g (t c) = next := by
  unfold clusterHeap clusterPtr Geometry.Cluster
  by_cases h : (2 ≤ c ∧ c < g.nFatent) ∧ t c ≠ 0
  · simp [h]
  · rw [if_neg h]
    constructor
    · intro hno
      cases hno
    · rintro ⟨hc, hused, -⟩
      exact absurd ⟨hc, hused⟩ h

theorem chain_nil : Chain g t c [] ↔ g.nFatent ≤ c := by
  simp [Chain, LinkedList.Chain, clusterPtr]

theorem chain_cons : Chain g t c (first :: cs) ↔
    c = first ∧ g.Cluster first ∧ t first ≠ 0 ∧ Chain g t (t first) cs := by
  simp only [Chain, LinkedList.Chain, List.map_cons, LinkedList.segment_cons, clusterHeap_eq_some]
  constructor
  · rintro ⟨hc, next, ⟨hfirst, hused, rfl⟩, hrest⟩
    refine ⟨?_, hfirst, hused, hrest⟩
    unfold clusterPtr at hc
    split at hc
    · exact Option.some.inj hc
    · cases hc
  · rintro ⟨rfl, hfirst, hused, hrest⟩
    exact ⟨if_pos hfirst.2, _, ⟨hfirst, hused, rfl⟩, hrest⟩

theorem Chain.nodup (h : Chain g t c cs) : cs.Nodup := by
  simpa using LinkedList.Chain.nodup h

theorem Chain.used (h : Chain g t c cs) {k : Nat} (hk : k ∈ cs) : g.Cluster k ∧ t k ≠ 0 := by
  induction cs generalizing c with
  | nil => cases hk
  | cons first cs ih =>
    obtain ⟨-, hfirst, hused, hrest⟩ := chain_cons.mp h
    rcases List.mem_cons.mp hk with rfl | hmem
    · exact ⟨hfirst, hused⟩
    · exact ih hrest hmem

theorem Chain.frame (h : Chain g t c cs) (hsame : ∀ k ∈ cs, t' k = t k) : Chain g t' c cs := by
  apply LinkedList.Segment.frame h
  intro k hk
  rw [addrs_clusters] at hk
  simp only [clusterHeap, hsame k hk]

theorem Chain.extend (h : Chain g t c (cs ++ [last])) (hr : g.Cluster r) (hfree : t r = 0)
    {mark : Nat} (hmark : g.nFatent ≤ mark) :
    Chain g (Function.update (Function.update t r mark) last r) c (cs ++ [last, r]) := by
  have hnodup := h.nodup
  have hlast := h.used (k := last) (by simp)
  have hne : r ≠ last := by
    rintro rfl
    exact hlast.2 hfree
  induction cs generalizing c with
  | nil =>
    obtain ⟨rfl, hlast, -, -⟩ := chain_cons.mp h
    have hpos : mark ≠ 0 := by
      have hlow := hr.2
      omega
    rw [List.nil_append, chain_cons, chain_cons, chain_nil, Function.update_self,
      Function.update_of_ne hne, Function.update_self]
    refine ⟨rfl, hlast, ?_, rfl, hr, hpos, hmark⟩
    have hlow := hr.1
    omega
  | cons first cs ih =>
    rw [List.cons_append, chain_cons] at h
    obtain ⟨rfl, hfirst, hused, hrest⟩ := h
    rw [List.cons_append, List.nodup_cons] at hnodup
    have hne' : c ≠ last := by
      rintro rfl
      exact hnodup.1 (by simp)
    have hne'' : c ≠ r := by
      rintro rfl
      exact hused hfree
    rw [List.cons_append, chain_cons, Function.update_of_ne hne', Function.update_of_ne hne'']
    exact ⟨rfl, hfirst, hused, ih hrest hnodup.2⟩

theorem chain_single (hr : g.Cluster r) {mark : Nat} (hmark : g.nFatent ≤ mark) :
    Chain g (Function.update t r mark) r [r] := by
  have hlow := hr.2
  rw [chain_cons, chain_nil, Function.update_self]
  exact ⟨rfl, hr, by omega, hmark⟩

theorem Chain.two_le (h : Chain g t c cs) (hg : g.Sound) : 2 ≤ c := by
  cases cs with
  | nil =>
    have hsome := hg.nonempty
    have hend := chain_nil.mp h
    omega
  | cons first cs =>
    obtain ⟨rfl, hfirst, -⟩ := chain_cons.mp h
    exact hfirst.1

theorem Chain.length_lt (h : Chain g t c cs) (hg : g.Sound) : cs.length < g.nFatent := by
  have hsub : cs.toFinset ⊆ Finset.Ico 2 g.nFatent := by
    intro k hk
    exact Finset.mem_Ico.mpr (h.used (List.mem_toFinset.mp hk)).1
  have hcard := Finset.card_le_card hsub
  have hsome := hg.nonempty
  rw [List.toFinset_card_of_nodup h.nodup, Nat.card_Ico] at hcard
  omega

theorem Chain.last_end (h : Chain g t c (cs ++ [last])) :
    g.nFatent ≤ t last := by
  induction cs generalizing c with
  | nil => exact chain_nil.mp (chain_cons.mp h).2.2.2
  | cons first cs ih => exact ih (chain_cons.mp h).2.2.2

end Chains

section Remove
variable {g : Geometry} {v : Sectors} {fs : Fatfs} {dev : Device} {clst : Nat} {cs : List Nat}

/-- What comes of `remove_chain`: the clusters of the chain are freed, and no others. -/
structure Removed (g : Geometry) (v v' : Sectors) (fs : Fatfs) (cs : List Nat) (res : FResult)
    (fs' : Fatfs) (dev' : Device) : Prop where
  shows : Presents g v' fs' dev'
  near : g.Near fs fs'
  outside : ∀ n, ¬g.InFat n → v' n = v n
  kept : ∀ k, k ∉ cs → g.table v' k = g.table v k
  unknown : fs.freeClust = 0xFFFFFFFF → fs'.freeClust = 0xFFFFFFFF
  outcome : res = .ok ∧ (∀ k ∈ cs, g.table v' k = 0) ∧
      (fs.freeClust + cs.length < 0xFFFFFFFF → fs'.freeClust = fs.freeClust + cs.length) ∨
    res = .diskErr

theorem ensures_freeChain (hg : g.Sound) (h : Presents g v fs dev) {fuel : Nat}
    (hchain : Chain g (g.table v) clst cs) (hfuel : cs.length < fuel) :
    Ensures deviceStep (freeChain fuel clst) fs dev (fun res fs' dev' =>
      ∃ v', Removed g v v' fs cs res fs' dev') := by
  induction fuel generalizing v fs dev clst cs with
  | zero => cases hfuel
  | succ fuel ih =>
    have hn : fs.nFatent = g.nFatent := congrArg Geometry.nFatent h.geometry
    simp only [freeChain, ensures_bind, ensures_get, ensures_ite, ensures_pure, hn]
    cases cs with
    | nil =>
      have hend := chain_nil.mp hchain
      refine ⟨fun hno => absurd hno (not_lt.mpr hend), fun _ => ⟨v, h, .inl rfl, fun _ _ => rfl,
        fun _ _ => rfl, id, .inl ⟨rfl, by simp, fun _ => rfl⟩⟩⟩
    | cons first cs =>
      have hnodup := hchain.nodup
      obtain ⟨rfl, hcluster, hused, hrest⟩ := chain_cons.mp hchain
      refine ⟨fun _ => ?_, fun hno => absurd hcluster.2 hno⟩
      apply (ensures_getFat hg h clst).mono
      rintro nxt fs₁ dev₁ ⟨hshows, hinfo, hnear, hval⟩
      rw [fatValue_of_cluster hcluster] at hval
      have hnext := hrest.two_le hg
      refine ⟨fun hzero => ?_, fun _ => ⟨fun hone => ?_,
        fun _ => ⟨fun herr => ?_, fun hread => ?_⟩⟩⟩
      · rcases hval with rfl | rfl
        · exact absurd hzero hused
        · cases hzero
      · rcases hval with rfl | rfl
        · omega
        · cases hone
      · exact ⟨v, hshows, hnear, fun _ _ => rfl, fun _ _ => rfl,
          fun hno => (congrArg FsInfo.freeClust hinfo).trans hno, .inr rfl⟩
      · obtain rfl := hval.resolve_right hread
        apply (ensures_putFat hg hshows clst 0).mono
        rintro res fs₂ dev₂ ⟨w, hput⟩
        have hinfo' := hput.info.trans hinfo
        refine ⟨fun hres => ?_, fun hres => ?_⟩
        · refine ⟨w, hput.shows, hnear.trans hput.near, hput.outside, fun k hk => ?_,
            fun hno => (congrArg FsInfo.freeClust hinfo').trans hno, .inr ?_⟩
          · exact hput.others k fun heq => hk (heq ▸ List.mem_cons_self)
          · rcases hput.outcome with ⟨hok, -⟩ | ⟨herr, -⟩ | ⟨-, hno, -⟩
            · exact absurd hok hres
            · exact herr
            · exact absurd hcluster (by unfold Geometry.Cluster; omega)
        · obtain rfl : res = .ok := by simpa using hres
          have htable := hput.table hg
          rw [Nat.zero_mod] at htable
          have hnot : clst ∉ cs := (List.nodup_cons.mp hnodup).1
          have hchain' : Chain g (g.table w) (g.table v clst) cs := by
            apply hrest.frame
            intro k hk
            exact hput.others k fun heq => hnot (heq ▸ hk)
          apply ensures_countFree
          intro flag
          apply (ih (hput.shows.count _) hchain' (by simpa using hfuel)).mono
          rintro res fs₃ dev₃ ⟨v', hrem⟩
          have hcount : fs₂.freeClust = fs.freeClust := congrArg FsInfo.freeClust hinfo'
          refine ⟨v', hrem.shows, (hnear.trans hput.near).trans hrem.near,
            fun n hn => (hrem.outside n hn).trans (hput.outside n hn), fun k hk => ?_,
            fun hno => hrem.unknown ?_, hrem.outcome.imp ?_ id⟩
          · rw [List.mem_cons, not_or] at hk
            exact (hrem.kept k hk.2).trans (hput.others k hk.1)
          · simp [freeAfter, hcount, hno]
          · rintro ⟨hok, hfreed, hsum⟩
            refine ⟨hok, fun k hk => ?_, fun hlt => ?_⟩
            · rcases List.mem_cons.mp hk with rfl | hmem
              · rw [hrem.kept k hnot, htable, Function.update_self]
              · exact hfreed k hmem
            · rw [List.length_cons] at hlt ⊢
              have hone : freeAfter fs₂.toFsInfo 1 = fs.freeClust + 1 := by
                rw [freeAfter, hcount, if_pos (by omega), u32, Nat.mod_eq_of_lt (by omega)]
              simp only [hone] at hsum
              rw [hsum (by omega)]
              omega

theorem ensures_removeChain (hg : g.Sound) (h : Presents g v fs dev)
    (hchain : Chain g (g.table v) clst cs) (hcluster : g.Cluster clst) :
    Ensures deviceStep (removeChain clst) fs dev (fun res fs' dev' =>
      ∃ v', Removed g v v' fs cs res fs' dev') := by
  have hn : fs.nFatent = g.nFatent := congrArg Geometry.nFatent h.geometry
  simp only [removeChain, ensures_bind, ensures_get, ensures_ite, ensures_pure, hn]
  refine ⟨fun hout => absurd hcluster (by unfold Geometry.Cluster; omega), fun _ => ?_⟩
  exact ensures_freeChain hg h hchain (hchain.length_lt hg)

end Remove

section Faults
variable {g : Geometry} {P : Nat → Prop}

theorem maintains_searchFree (hg : g.Sound) (hP : Allows g P) (scl fuel ncl : Nat) :
    Maintains (Around g P) failedTransfer (searchFree scl fuel ncl) (fun found =>
      match found with
      | .ok ncl => ncl ≠ diskError
      | .error code => code ≠ diskError) := by
  induction fuel generalizing ncl with
  | zero => exact maintains_stuck
  | succ fuel ih =>
    refine maintains_get fun fs hfs => ?_
    refine maintains_ite (fun _ => maintains_pure (by decide)) fun _ => ?_
    have hn : fs.nFatent = g.nFatent := congrArg Geometry.nFatent hfs.geometry
    have hcluster : (if fs.nFatent ≤ ncl + 1 then 2 else ncl + 1) ≠ diskError := by
      have hsome := hg.nonempty
      have hlt := hg.nFatent_lt
      unfold diskError
      split <;> omega
    refine (maintains_getFat hg hP _).bind fun cs =>
      maintains_ite (fun _ => maintains_pure fun _ => hcluster) fun _ => ?_
    refine maintains_ite (fun _ => maintains_pure id) fun _ => ?_
    exact maintains_ite (fun _ => maintains_pure fun _ => by decide)
      fun _ => (ih _).mono fun _ hfound _ => hfound

theorem maintains_allocate (hg : g.Sound) (hP : Allows g P) (clst scl : Nat) :
    Maintains (Around g P) failedTransfer (allocate clst scl) (· ≠ diskError) := by
  refine maintains_get fun fs _ => (maintains_searchFree hg hP _ _ _).bind fun found => ?_
  cases found with
  | error code => exact maintains_pure id
  | ok ncl =>
    have hend : ∀ res : FResult, Maintains (Around g P) failedTransfer (if res = .ok then do
        modify fun fs => { fs with lastClust := ncl }
        countFree (2 ^ 32 - 1)
        pure ncl
      else pure (if res = .diskErr then diskError else 1))
        (fun r => res ≠ .diskErr → ncl ≠ diskError → r ≠ diskError) := by
      refine fun res => maintains_ite (fun _ => ?_) fun _ => maintains_pure fun hres _ => ?_
      · refine (maintains_modify fun fs hfs => ⟨hfs.geometry, hfs.winsect⟩).bind fun _ => ?_
        refine Maintains.bind (maintains_modify fun fs hfs => ?_)
          fun _ => maintains_pure fun _ _ _ => id
        split
        · exact ⟨hfs.geometry, hfs.winsect⟩
        · exact hfs
      · rw [if_neg hres]
        decide
    refine (maintains_putFat hg hP _ _).bind fun res => maintains_ite (fun _ => ?_) fun _ => ?_
    · exact (maintains_putFat hg hP _ _).bind fun res =>
        (hend res).mono fun r hr hres _ hncl => hr hres hncl
    · have hsame : Maintains (Around g P) failedTransfer (pure res : FatFs FResult) (· = res) :=
        maintains_pure rfl
      exact hsame.bind fun res' =>
        (hend res').mono fun r hr heq hres hncl => hr (heq ▸ hres) hncl

theorem maintains_createChain (hg : g.Sound) (hP : Allows g P) (clst : Nat) :
    Maintains (Around g P) failedTransfer (createChain clst) (· ≠ diskError) := by
  refine maintains_get fun fs _ => maintains_ite (fun _ => maintains_allocate hg hP _ _) fun _ => ?_
  refine (maintains_getFat hg hP _).bind fun cs =>
    maintains_ite (fun _ => maintains_pure fun _ => by decide) fun _ => ?_
  refine maintains_ite (fun herr => maintains_pure fun hno => absurd herr hno) fun _ => ?_
  exact maintains_ite (fun _ => maintains_pure id)
    fun _ => (maintains_allocate hg hP _ _).mono fun _ hr _ => hr

theorem maintains_freeChain (hg : g.Sound) (hP : Allows g P) (fuel clst : Nat) :
    Maintains (Around g P) failedTransfer (freeChain fuel clst) (· ≠ .diskErr) := by
  induction fuel generalizing clst with
  | zero => exact maintains_stuck
  | succ fuel ih =>
    refine maintains_get fun fs _ => maintains_ite (fun _ => ?_)
      fun _ => maintains_pure (by decide)
    refine (maintains_getFat hg hP _).bind fun nxt =>
      maintains_ite (fun _ => maintains_pure fun _ => by decide) fun _ =>
        maintains_ite (fun _ => maintains_pure fun _ => by decide) fun _ =>
          maintains_ite (fun herr => maintains_pure fun hno => absurd herr hno) fun _ => ?_
    refine (maintains_putFat hg hP _ _).bind fun res =>
      maintains_ite (fun _ => maintains_pure fun hres _ => hres) fun _ => ?_
    refine Maintains.bind (maintains_modify fun fs hfs => ?_)
      fun _ => (ih _).mono fun _ hres _ _ _ => hres
    split
    · exact ⟨hfs.geometry, hfs.winsect⟩
    · exact hfs

theorem maintains_removeChain (hg : g.Sound) (hP : Allows g P) (clst : Nat) :
    Maintains (Around g P) failedTransfer (removeChain clst) (· ≠ .diskErr) :=
  maintains_get fun _ _ => maintains_ite (fun _ => maintains_pure (by decide))
    fun _ => maintains_freeChain hg hP _ _

end Faults

end FtpServer

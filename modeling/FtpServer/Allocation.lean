import FtpServer.Clusters

/-! The clusters of a volume over whole runs: who calls `create_chain` and `remove_chain`, and
keeps the chains that they return, has no cluster in two of them. A call that fails costs the
chain it was for, and the count of free clusters; nothing else. -/

namespace FtpServer
open Interaction Transition

/-- The chains somebody holds, and whether they are known to be all. -/
structure Alloc where
  chains : List (List Nat)
  exact : Bool
  deriving DecidableEq, Repr

/-- A call and what it returns; a chain is given by its last or its first cluster. -/
inductive ChainOp where
  | create (r : Nat)
  | extend (cs : List Nat) (r : Nat)
  | remove (cs : List Nat) (res : FResult)
  deriving DecidableEq, Repr

def Alloc.track (a : Alloc) (g : Geometry) : ChainOp → Alloc
  | .create r =>
    if 2 ≤ r ∧ r < g.nFatent then { a with chains := [r] :: a.chains }
    else if r = 0 then a
    else { a with exact := false }
  | .extend cs r =>
    if 2 ≤ r ∧ r < g.nFatent then { a with chains := (cs ++ [r]) :: a.chains.erase cs }
    else if r = 0 then a
    else { chains := a.chains.erase cs, exact := false }
  | .remove cs res => { chains := a.chains.erase cs, exact := a.exact && decide (res = .ok) }

/-- A call, with a note of whether one of its transfers has failed. -/
def chainStep (s : Fatfs × Device) (e : ChainOp × Bool) (s' : Fatfs × Device) : Prop :=
  match e with
  | (.create r, failed) =>
    Executes notedStep (createChain 0) s.1 (s.2, false) r s'.1 (s'.2, failed)
  | (.extend cs r, failed) => ∃ last, cs.getLast? = some last ∧
    Executes notedStep (createChain last) s.1 (s.2, false) r s'.1 (s'.2, failed)
  | (.remove cs res, failed) => ∃ first, cs.head? = some first ∧
    Executes notedStep (removeChain first) s.1 (s.2, false) res s'.1 (s'.2, failed)

def Alloc.Holds (a : Alloc) : ChainOp → Prop
  | .create _ => True
  | .extend cs _ | .remove cs _ => cs ∈ a.chains

def allocStep (g : Geometry) (s : (Fatfs × Device) × Alloc) (e : ChainOp × Bool)
    (s' : (Fatfs × Device) × Alloc) : Prop :=
  s.2.Holds e.1 ∧ chainStep s.1 e s'.1 ∧ s'.2 = s.2.track g e.1

/-- A new cluster is in none of the chains. There is none only when all clusters are in use, and
an error is that of a transfer, or of an entry that is in none of the chains. -/
def Alloc.Gives (a : Alloc) (g : Geometry) (r : Nat) (failed : Bool) : Prop :=
  (2 ≤ r ∧ r < g.nFatent) ∧ r ∉ a.chains.flatten ∨
    r = 0 ∧ (a.exact = true → ∀ c, 2 ≤ c → c < g.nFatent → c ∈ a.chains.flatten) ∨
    r = 1 ∧ a.exact = false ∨
    r = diskError ∧ failed = true

/-- What a call may return to a holder of these chains. -/
def holderStep (g : Geometry) (a : Alloc) (e : ChainOp × Bool) (a' : Alloc) : Prop :=
  a.Holds e.1 ∧ a' = a.track g e.1 ∧
    match e with
    | (.create r, failed) | (.extend _ r, failed) => a.Gives g r failed
    | (.remove _ res, failed) => res = .ok ∨ res = .diskErr ∧ failed = true

/-- The chains are what they are held for. -/
structure Allocated (g : Geometry) (v : Sectors) (fs : Fatfs) (dev : Device)
    (a : Alloc) : Prop where
  shows : Presents g v fs dev
  chains : ∀ cs ∈ a.chains, ∃ c, g.Cluster c ∧ Chain g (g.table v) c cs
  apart : a.chains.flatten.Nodup
  all : a.exact = true → ∀ c, g.Cluster c → g.table v c ≠ 0 → c ∈ a.chains.flatten
  count : a.exact = true → fs.freeClust ≠ 0xFFFFFFFF →
    fs.freeClust + a.chains.flatten.length + 2 = g.nFatent

section Lists
variable {chains : List (List Nat)} {cs cs' : List Nat}

theorem flatten_perm (h : cs ∈ chains) : chains.flatten.Perm (cs ++ (chains.erase cs).flatten) :=
  (List.perm_cons_erase h).flatten

end Lists

section Steps
variable {g : Geometry} {v v' : Sectors} {fs fs' : Fatfs} {dev dev' : Device} {a : Alloc}
  {cs : List Nat} {r : Nat}

theorem Allocated.used (h : Allocated g v fs dev a) {c : Nat} (hc : c ∈ a.chains.flatten) :
    g.Cluster c ∧ g.table v c ≠ 0 := by
  obtain ⟨cs, hcs, hmem⟩ := List.mem_flatten.mp hc
  obtain ⟨first, -, hchain⟩ := h.chains cs hcs
  exact hchain.used hmem

theorem Allocated.length_le (h : Allocated g v fs dev a) (hr : g.Cluster r)
    (hfree : g.table v r = 0) : a.chains.flatten.length + 3 ≤ g.nFatent := by
  have hsub : (r :: a.chains.flatten).toFinset ⊆ Finset.Ico 2 g.nFatent := by
    intro k hk
    rw [Finset.mem_Ico]
    rcases List.mem_cons.mp (List.mem_toFinset.mp hk) with rfl | hmem
    · exact hr
    · exact (h.used hmem).1
  have hnodup : (r :: a.chains.flatten).Nodup :=
    List.nodup_cons.mpr ⟨fun hmem => (h.used hmem).2 hfree, h.apart⟩
  have hcard := Finset.card_le_card hsub
  rw [List.toFinset_card_of_nodup hnodup, Nat.card_Ico, List.length_cons] at hcard
  have hlow := hr.1
  have hhigh := hr.2
  omega

theorem chains_frame {t t' : Nat → Nat} {chains : List (List Nat)}
    (h : ∀ cs ∈ chains, ∃ c, g.Cluster c ∧ Chain g t c cs)
    (hsame : ∀ k ∈ chains.flatten, t' k = t k) :
    ∀ cs ∈ chains, ∃ c, g.Cluster c ∧ Chain g t' c cs := by
  intro cs hcs
  obtain ⟨c, hc, hchain⟩ := h cs hcs
  exact ⟨c, hc, hchain.frame fun k hk => hsame k (List.mem_flatten_of_mem hcs hk)⟩

theorem known_of_freeAfter {info : FsInfo} {n : Nat} (h : freeAfter info n ≠ 0xFFFFFFFF) :
    info.freeClust ≠ 0xFFFFFFFF := by
  intro hunknown
  simp [freeAfter, hunknown] at h

theorem freeAfter_pred {info : FsInfo} (hknown : info.freeClust ≠ 0xFFFFFFFF)
    (hpos : 1 ≤ info.freeClust) (hlt : info.freeClust ≤ 2 ^ 32) :
    freeAfter info (2 ^ 32 - 1) = info.freeClust - 1 := by
  rw [freeAfter, if_pos hknown, u32]
  omega

theorem Allocated.create (hg : g.Sound) (h : Allocated g v fs dev a)
    (hcreated : Created g v v' fs 0 r fs' dev') :
    Allocated g v' fs' dev' (a.track g (.create r)) := by
  rcases hcreated.outcome with ⟨hr, hfree, -, -, htable, -, hcount⟩ | ⟨hno, -⟩ |
    ⟨rfl, hfull, rfl, hinfo⟩ | ⟨rfl, -, rfl, hinfo⟩ | ⟨rfl, hinfo⟩
  · simp only [if_true, id] at htable
    have hnew : r ∉ a.chains.flatten := fun hmem => (h.used hmem).2 hfree
    have hsame : ∀ k, k ≠ r → g.table v' k = g.table v k := by
      intro k hk
      rw [htable, Function.update_of_ne hk]
    have hlen := h.length_le hr hfree
    rw [Alloc.track, if_pos ⟨hr.1, hr.2⟩]
    refine ⟨hcreated.shows, ?_, ?_, fun hexact c hc hused => ?_, fun hexact hknown => ?_⟩
    · rw [List.forall_mem_cons]
      refine ⟨⟨r, hr, ?_⟩, chains_frame h.chains fun k hk => hsame k fun heq => hnew (heq ▸ hk)⟩
      rw [htable]
      exact chain_single hr hg.marks
    · rw [List.flatten_cons, List.singleton_append, List.nodup_cons]
      exact ⟨hnew, h.apart⟩
    · rw [List.flatten_cons, List.singleton_append, List.mem_cons]
      by_cases hcr : c = r
      · exact .inl hcr
      · exact .inr (h.all hexact c hc (hsame c hcr ▸ hused))
    · rw [hcount] at hknown
      have hsum := h.count hexact (known_of_freeAfter hknown)
      have hlt := hg.nFatent_lt
      rw [List.flatten_cons, List.singleton_append, List.length_cons, hcount,
        freeAfter_pred (known_of_freeAfter hknown) (by omega) (by omega)]
      omega
  · exact absurd hno.1 (by decide)
  · rw [Alloc.track, if_neg (by omega), if_pos rfl]
    refine ⟨hcreated.shows, h.chains, h.apart, h.all, ?_⟩
    rw [hinfo]
    exact h.count
  · rw [Alloc.track, if_neg (by omega), if_neg (by decide)]
    exact ⟨hcreated.shows, h.chains, h.apart, fun hno => absurd hno Bool.false_ne_true,
      fun hno => absurd hno Bool.false_ne_true⟩
  · have hlt : g.nFatent < diskError := hg.nFatent_lt
    rw [Alloc.track, if_neg (by omega), if_neg (by decide)]
    refine ⟨hcreated.shows, chains_frame h.chains fun k hk => ?_, h.apart,
      fun hno => absurd hno Bool.false_ne_true, fun hno => absurd hno Bool.false_ne_true⟩
    obtain ⟨hcluster, hused⟩ := h.used hk
    refine hcreated.kept k ?_ hused
    rintro rfl
    exact absurd hcluster.1 (by decide)

theorem Allocated.others (h : Allocated g v fs dev a) (hcs : cs ∈ a.chains) :
    (∀ cs' ∈ a.chains.erase cs, ∃ c, g.Cluster c ∧ Chain g (g.table v) c cs') ∧
      (a.chains.erase cs).flatten.Nodup ∧
      (∀ k ∈ (a.chains.erase cs).flatten, k ∉ cs ∧ k ∈ a.chains.flatten) ∧
      a.chains.flatten.length = cs.length + (a.chains.erase cs).flatten.length := by
  have hperm := flatten_perm hcs
  have hnodup := List.nodup_append.mp (hperm.nodup_iff.mp h.apart)
  refine ⟨fun cs' hcs' => h.chains cs' (List.mem_of_mem_erase hcs'), hnodup.2.1,
    fun k hk => ⟨fun hmem => hnodup.2.2 k hmem k hk rfl, ?_⟩, ?_⟩
  · exact hperm.mem_iff.mpr (List.mem_append_right _ hk)
  · rw [hperm.length_eq, List.length_append]

theorem Allocated.drop (h : Allocated g v fs dev a) (hcs : cs ∈ a.chains)
    (hshows : Presents g v' fs' dev')
    (hkept : ∀ k, k ∉ cs → g.table v k ≠ 0 → g.table v' k = g.table v k) :
    Allocated g v' fs' dev' { chains := a.chains.erase cs, exact := false } := by
  obtain ⟨hchains, hnodup, hother, -⟩ := h.others hcs
  refine ⟨hshows, chains_frame hchains fun k hk => ?_, hnodup,
    fun hno => absurd hno Bool.false_ne_true, fun hno => absurd hno Bool.false_ne_true⟩
  obtain ⟨hnot, hmem⟩ := hother k hk
  exact hkept k hnot (h.used hmem).2

theorem Allocated.extend (hg : g.Sound) {last : Nat} (h : Allocated g v fs dev a)
    (hcs : cs ∈ a.chains) (hlast : cs.getLast? = some last)
    (hcreated : Created g v v' fs last r fs' dev') :
    Allocated g v' fs' dev' (a.track g (.extend cs r)) := by
  obtain ⟨init, rfl⟩ := List.getLast?_eq_some_iff.mp hlast
  obtain ⟨hchains, hnodup, hother, hlen⟩ := h.others hcs
  obtain ⟨first, hfirst, hchain⟩ := h.chains _ hcs
  have hkept : ∀ k, k ∉ init ++ [last] → g.table v k ≠ 0 → g.table v' k = g.table v k := by
    intro k hk hused
    exact hcreated.kept k (fun heq => hk (by simp [heq])) hused
  have hend := hchain.last_end
  have hused := hchain.used (k := last) (by simp)
  have hperm := flatten_perm hcs
  rcases hcreated.outcome with ⟨hr, hfree, -, -, htable, -, hcount⟩ | ⟨-, rfl, hno, -⟩ |
    ⟨rfl, hfull, rfl, hinfo⟩ | ⟨rfl, -, rfl, hinfo⟩ | ⟨rfl, hinfo⟩
  · have hpos : last ≠ 0 := by
      have hlow := hused.1.1
      omega
    rw [if_neg hpos] at htable
    have hnew : r ∉ a.chains.flatten := fun hmem => (h.used hmem).2 hfree
    have hsame : ∀ k, k ≠ last → k ≠ r → g.table v' k = g.table v k := by
      intro k hk hk'
      rw [htable, Function.update_of_ne hk, Function.update_of_ne hk']
    have hfull := h.length_le hr hfree
    rw [Alloc.track, if_pos ⟨hr.1, hr.2⟩]
    refine ⟨hcreated.shows, ?_, ?_, fun hexact c hc hc' => ?_, fun hexact hknown => ?_⟩
    · rw [List.forall_mem_cons]
      refine ⟨⟨first, hfirst, ?_⟩, chains_frame hchains fun k hk => ?_⟩
      · rw [htable, List.append_assoc]
        exact hchain.extend hr hfree hg.marks
      · obtain ⟨hnot, hmem⟩ := hother k hk
        exact hsame k (fun heq => hnot (by simp [heq])) fun heq => hnew (heq ▸ hmem)
    · have hperm' : ((init ++ [last] ++ [r]) :: (a.chains.erase (init ++ [last]))).flatten.Perm
          (r :: a.chains.flatten) := by
        rw [List.flatten_cons, List.append_assoc, List.singleton_append]
        exact List.perm_middle.trans (hperm.symm.cons r)
      exact hperm'.nodup_iff.mpr (List.nodup_cons.mpr ⟨hnew, h.apart⟩)
    · rw [List.flatten_cons, List.mem_append, List.mem_append, List.mem_singleton]
      by_cases hcr : c = r
      · exact .inl (.inr hcr)
      · have hmem : c ∈ a.chains.flatten := by
          by_cases hcl : c = last
          · subst hcl
            exact hperm.mem_iff.mpr (by simp)
          · exact h.all hexact c hc (hsame c hcl hcr ▸ hc')
        exact (List.mem_append.mp (hperm.mem_iff.mp hmem)).imp .inl id
    · rw [hcount] at hknown
      have hsum := h.count hexact (known_of_freeAfter hknown)
      have hlt := hg.nFatent_lt
      rw [List.flatten_cons, List.length_append, List.length_append, List.length_singleton, hcount,
        freeAfter_pred (known_of_freeAfter hknown) (by omega) (by omega)]
      omega
  · exact absurd hno.2 (not_lt.mpr hend)
  · rw [Alloc.track, if_neg (by omega), if_pos rfl]
    refine ⟨hcreated.shows, h.chains, h.apart, h.all, ?_⟩
    rw [hinfo]
    exact h.count
  · rw [Alloc.track, if_neg (by omega), if_neg (by decide)]
    exact h.drop hcs hcreated.shows hkept
  · have hlt : g.nFatent < diskError := hg.nFatent_lt
    rw [Alloc.track, if_neg (by omega), if_neg (by decide)]
    exact h.drop hcs hcreated.shows hkept

theorem Allocated.remove (hg : g.Sound) {res : FResult} (h : Allocated g v fs dev a)
    (hcs : cs ∈ a.chains) (hremoved : Removed g v v' fs cs res fs' dev') :
    Allocated g v' fs' dev' (a.track g (.remove cs res)) := by
  obtain ⟨hchains, hnodup, hother, hlen⟩ := h.others hcs
  have hperm := flatten_perm hcs
  rcases hremoved.outcome with ⟨rfl, hfreed, hcount⟩ | rfl
  · refine ⟨hremoved.shows, chains_frame hchains fun k hk => hremoved.kept k (hother k hk).1,
      hnodup, fun hexact c hc hused => ?_, fun hexact hknown => ?_⟩
    · have hnot : c ∉ cs := fun hmem => hused (hfreed c hmem)
      have hmem := h.all (by simpa [Alloc.track] using hexact) c hc (hremoved.kept c hnot ▸ hused)
      exact (List.mem_append.mp (hperm.mem_iff.mp hmem)).resolve_left hnot
    · have hsum := h.count (by simpa [Alloc.track] using hexact)
        fun hunknown => hknown (hremoved.unknown hunknown)
      have hlt := hg.nFatent_lt
      change fs'.freeClust + (a.chains.erase cs).flatten.length + 2 = g.nFatent
      rw [hcount (by omega)]
      omega
  · rw [Alloc.track, decide_eq_false (by decide), Bool.and_false]
    exact h.drop hcs hremoved.shows fun k hk _ => hremoved.kept k hk

end Steps

section Runs
variable {g : Geometry}

def Holding (g : Geometry) (s : (Fatfs × Device) × Alloc) : Prop :=
  ∃ v, Allocated g v s.1.1 s.1.2 s.2

theorem Chain.ne_one {t : Nat → Nat} {c k : Nat} {cs : List Nat} (h : Chain g t c cs)
    (hg : g.Sound) (hk : k ∈ cs) : t k ≠ 1 := by
  induction cs generalizing c with
  | nil => cases hk
  | cons first cs ih =>
    obtain ⟨rfl, -, -, hrest⟩ := chain_cons.mp h
    rcases List.mem_cons.mp hk with rfl | hmem
    · have hnext := hrest.two_le hg
      omega
    · exact ih hrest hmem

theorem Allocated.gives (hg : g.Sound) {v v' : Sectors} {fs fs' : Fatfs} {dev dev' : Device}
    {a : Alloc} {clst r : Nat} {failed : Bool} (h : Allocated g v fs dev a)
    (hcreated : Created g v v' fs clst r fs' dev')
    (hclst : clst ≠ 0 → g.Cluster clst ∧ g.nFatent ≤ g.table v clst)
    (hquiet : failed = false → r ≠ diskError) : a.Gives g r failed := by
  rcases hcreated.outcome with ⟨hr, hfree, -⟩ | ⟨hcluster, rfl, hno, -⟩ | ⟨rfl, hfull, -⟩ |
    ⟨rfl, hbad, -⟩ | ⟨rfl, -⟩
  · exact .inl ⟨hr, fun hmem => (h.used hmem).2 hfree⟩
  · have hpos : clst ≠ 0 := by
      have hlow := hcluster.1
      omega
    exact absurd hno.2 (not_lt.mpr (hclst hpos).2)
  · exact .inr (.inl ⟨rfl, fun hexact c hlow hhigh =>
      h.all hexact c ⟨hlow, hhigh⟩ (hfull.1 c ⟨hlow, hhigh⟩)⟩)
  · refine .inr (.inr (.inl ⟨rfl, ?_⟩))
    by_contra hno
    rcases hbad with ⟨c, hc, hone⟩ | ⟨hpos, hlow⟩
    · have hmem := h.all (by simpa using hno) c hc (by omega)
      obtain ⟨cs, hcs, hin⟩ := List.mem_flatten.mp hmem
      obtain ⟨first, -, hchain⟩ := h.chains cs hcs
      exact hchain.ne_one hg hin hone
    · obtain ⟨hcluster, hend⟩ := hclst hpos
      have hsome := hg.nonempty
      rw [fatValue_of_cluster hcluster] at hlow
      omega
  · refine .inr (.inr (.inr ⟨rfl, ?_⟩))
    by_contra hno
    exact hquiet (by simpa using hno) rfl

theorem allocStep_holding (hg : g.Sound) {s s' : (Fatfs × Device) × Alloc} {e : ChainOp × Bool}
    (h : Holding g s) (hstep : allocStep g s e s') :
    holderStep g s.2 e s'.2 ∧ Holding g s' := by
  obtain ⟨v, halloc⟩ := h
  obtain ⟨hlegit, hstep, htrack⟩ := hstep
  have hstart : Around g (fun _ => True) s.1.1 := ⟨halloc.shows.geometry, trivial⟩
  have hall := allows_all g
  rw [Holding, htrack]
  obtain ⟨op, failed⟩ := e
  cases op with
  | create r =>
    obtain ⟨v', hcreated⟩ := (ensures_createChain hg halloc.shows 0).executes hstep.forget
    have hquiet := ((maintains_createChain hg hall 0).executes hstart hstep).2
    exact ⟨⟨hlegit, rfl, halloc.gives hg hcreated (fun hno => absurd rfl hno) hquiet⟩, v',
      halloc.create hg hcreated⟩
  | extend cs r =>
    obtain ⟨last, hlast, hstep⟩ := hstep
    obtain ⟨v', hcreated⟩ := (ensures_createChain hg halloc.shows last).executes hstep.forget
    have hquiet := ((maintains_createChain hg hall last).executes hstart hstep).2
    refine ⟨⟨hlegit, rfl, halloc.gives hg hcreated (fun _ => ?_) hquiet⟩, v',
      halloc.extend hg hlegit hlast hcreated⟩
    obtain ⟨init, rfl⟩ := List.getLast?_eq_some_iff.mp hlast
    obtain ⟨first, -, hchain⟩ := halloc.chains _ hlegit
    exact ⟨(hchain.used (by simp)).1, hchain.last_end⟩
  | remove cs res =>
    obtain ⟨first, hfirst, hstep⟩ := hstep
    obtain ⟨c, hc, hchain⟩ := halloc.chains cs hlegit
    obtain ⟨rest, rfl⟩ := List.head?_eq_some_iff.mp hfirst
    obtain rfl := (chain_cons.mp hchain).1
    obtain ⟨v', hremoved⟩ :=
      (ensures_removeChain hg halloc.shows hchain hc).executes hstep.forget
    have hquiet := ((maintains_removeChain hg hall c).executes hstart hstep).2
    refine ⟨⟨hlegit, rfl, hremoved.outcome.imp And.left fun herr => ⟨herr, ?_⟩⟩, v',
      halloc.remove hg hlegit hremoved⟩
    by_contra hno
    exact hquiet (by simpa using hno) herr

/-- Whichever transfers fail, the chains that are held stay chains without a common cluster, and
as long as no call has failed they are all that is in use, and `free_clust` is right. New clusters
are refused only where there are none, or by a transfer that fails. -/
theorem alloc_run (hg : g.Sound) {s s' : (Fatfs × Device) × Alloc} {ops : List (ChainOp × Bool)}
    (h : Holding g s) (hrun : Follows (allocStep g) s ops s') :
    Holding g s' ∧ Follows (holderStep g) s.2 ops s'.2 := by
  obtain ⟨a, hheld, hend, rfl⟩ := hrun.refines (fun s a => Holding g s ∧ s.2 = a) id
    (by
      rintro s e s' a ⟨hs, rfl⟩ hstep
      obtain ⟨hnext, hs'⟩ := allocStep_holding hg hs hstep
      exact ⟨s'.2, hnext, hs', rfl⟩)
    ⟨h, rfl⟩
  rw [List.map_id] at hheld
  exact ⟨hend, hheld⟩

theorem table_blank (htype : g.fsType = .fat12) (c : Nat) : g.table (fun _ => .zero) c = 0 := by
  simp [Geometry.table, htype, tableEntry, Packed.twelve, Packed.word, fatMemory]

theorem alloc_run_floppy : ∃ s', Holding floppy s' ∧ s'.2 = ⟨[[4]], true⟩ ∧
    Follows (holderStep floppy) ⟨[], true⟩ [(.create 2, false), (.extend [2] 3, false),
      (.remove [2, 3] .ok, false), (.create 4, false)] s'.2 := by
  have hblank : Holding floppy (blank floppy, ⟨[], true⟩) :=
    ⟨fun _ => .zero, blank_shows floppy, by simp, by simp,
      fun _ c _ hused => absurd (table_blank rfl c) hused, fun _ hno => absurd rfl hno⟩
  obtain ⟨fs, dev, hplay⟩ := exists_executes_quiet
    (s := (blank floppy).1) (w := (blank floppy).2)
    (p := do
      let r ← createChain 0
      let r' ← createChain 2
      let res ← removeChain 2
      let r₂ ← createChain 0
      pure (r, r', res, r₂))
    (a := (2, 3, .ok, 4)) Device.serve_step Device.serve_quiet (by decide +kernel)
  simp only [executes_bind_quiet, executes_pure, Prod.mk.injEq, and_true] at hplay
  obtain ⟨r, fs₁, dev₁, hcreate, r', fs₂, dev₂, hextend, res, fs₃, dev₃, hremove, r₂, fs₄, dev₄,
    hagain, ⟨rfl, rfl, rfl, rfl⟩, rfl, rfl⟩ := hplay
  have hrun : Follows (allocStep floppy) (blank floppy, ⟨[], true⟩)
      [(.create 2, false), (.extend [2] 3, false), (.remove [2, 3] .ok, false), (.create 4, false)]
      ((fs, dev), ⟨[[4]], true⟩) :=
    ⟨((fs₁, dev₁), ⟨[[2]], true⟩), ⟨trivial, hcreate, rfl⟩,
      ((fs₂, dev₂), ⟨[[2, 3]], true⟩), ⟨by simp [Alloc.Holds], ⟨2, rfl, hextend⟩, rfl⟩,
      ((fs₃, dev₃), ⟨[], true⟩), ⟨by simp [Alloc.Holds], ⟨2, rfl, hremove⟩, rfl⟩,
      ((fs, dev), ⟨[[4]], true⟩), ⟨trivial, hagain, rfl⟩, rfl⟩
  obtain ⟨hend, hheld⟩ := alloc_run floppy_sound hblank hrun
  exact ⟨_, hend, rfl, hheld⟩

end Runs

end FtpServer

import FtpServer.Streams

/-! Several open files on one volume, as the clients of the server have them: whatever the order of
their calls, each is a byte stream of its own. -/

namespace FtpServer
open Interaction Transition CString Overlay

section Beside
variable {g : Geometry} {w w' v v' : Sectors} {cs cs' other : List Nat} {fs fs' : Fatfs}
  {dev dev' : Device} {fp fp' : Fil} {base : FilBase} {dir sect ptr n q : Nat} {behind : Bool}

theorem Elsewhere.mono (h : Elsewhere g w cs n)
    (hused : ∀ c, g.Cluster c → g.table w c ≠ 0 → g.table w' c ≠ 0) : Elsewhere g w' cs n := by
  refine ⟨h.outside, fun c r hc hr hsect => ?_⟩
  obtain ⟨hnot, htaken⟩ := h.used c r hc hr hsect
  exact ⟨hnot, hused c hc htaken⟩

theorem Spares.used (h : Spares g dir ptr w cs w' cs') (hg : g.Sound) (hdir : ¬g.InFat dir) :
    ∀ c, g.Cluster c → g.table w c ≠ 0 → g.table w' c ≠ 0 := by
  intro c hc hused
  have hstill := h.ext.used c hc hused
  rwa [table_update hg hdir _ hc] at hstill

theorem Spares.elsewhere (h : Spares g dir ptr w cs w' cs') (hg : g.Sound) (hdir : ¬g.InFat dir)
    (hn : Elsewhere g w cs n) : Elsewhere g w' cs' n :=
  (h.ext.elsewhere hn).congr fun _ hc => (table_update hg hdir _ hc).symm

theorem Spares.under (h : Spares g dir ptr (fp.over v) cs (fp'.over v') cs') (hg : g.Sound)
    (hplaced : Placed g (fp.over v) fs dev fp cs)
    (hplaced' : Placed g (fp'.over v') fs' dev' fp' cs')
    (hdir : Elsewhere g (fp.over v) cs dir) : Spares g dir ptr v cs v' cs' := by
  have htable : ∀ c, g.Cluster c → g.table (fp.over v) c = g.table v c :=
    fun c hc => hplaced.table_over hg hc
  have htable' : ∀ c, g.Cluster c → g.table (Function.update v' dir (v dir)) c =
      g.table (Function.update (fp'.over v') dir (fp.over v dir)) c := by
    intro c hc
    rw [table_update hg hdir.outside _ hc, table_update hg hdir.outside _ hc,
      hplaced'.table_over hg hc]
  have hsame : ∀ n, Elsewhere g (fp.over v) cs n →
      fp.over v n = v n ∧ fp'.over v' n = v' n := fun n hn =>
    ⟨hplaced.over_of_not fun _ hq => hn.ne hg hplaced.clusters hq,
      hplaced'.over_of_not fun _ hq => (h.elsewhere hg hdir.outside hn).ne hg hplaced'.clusters hq⟩
  refine ⟨⟨h.ext.old, fun c hc => ?_, fun c hc hnot hused => ?_, fun n hn => ?_,
    fun c hc hused => ?_, fun c hc => ?_⟩, fun j hj => ?_⟩
  · rw [← htable c (hplaced'.clusters c hc)]
    exact h.ext.fresh c hc
  · rw [← htable c hc] at hused ⊢
    rw [htable' c hc]
    exact h.ext.table c hc hnot hused
  · by_cases heq : n = dir
    · rw [heq, Function.update_self]
    · have helsewhere := hn.congr htable
      have hkept := h.ext.sectors n helsewhere
      rw [Function.update_of_ne heq] at hkept ⊢
      rwa [(hsame n helsewhere).1, (hsame n helsewhere).2] at hkept
  · rw [← htable c hc] at hused
    rw [htable' c hc]
    exact h.ext.used c hc hused
  · rw [htable' c (hplaced'.clusters c hc)]
    exact h.ext.taken c hc
  · rw [← (hsame dir hdir).1, ← (hsame dir hdir).2]
    exact h.entry j hj

theorem Placed.beside (h : Placed g (fp.over v) fs dev fp other) (hshows : Presents g v' fs' dev')
    (hwin : ∀ q, FileHas g other q → fs'.winsect ≠ fileSect g other q) :
    Placed g (fp.over v') fs' dev' fp other :=
  ⟨⟨v', hshows, rfl⟩, h.id, h.clusters, h.nodup, h.loaded, hwin⟩

theorem Slot.beside (h : Slot g (fp.over v) other fp.toFilBase) (hg : g.Sound)
    (hplaced : Placed g (fp.over v) fs dev fp other)
    (hused : ∀ c, g.Cluster c → g.table v c ≠ 0 → g.table v' c ≠ 0) :
    Slot g (fp.over v') other fp.toFilBase := by
  refine ⟨h.elsewhere.mono fun c hc => ?_, h.primary, h.low, h.fits⟩
  rw [hplaced.table_over hg hc, hplaced.table_over hg hc]
  exact hused c hc

theorem Beside.grow (h : Beside g v cs base sect ptr other) (hg : g.Sound)
    (hspares : Spares g base.dirSect base.dirPtr v cs v' cs') (hdir : ¬g.InFat base.dirSect)
    (hused : ∀ c ∈ other, g.table v c ≠ 0) {base' : FilBase} (hsect : base'.dirSect = base.dirSect)
    (hptr : base'.dirPtr = base.dirPtr) : Beside g v' cs' base' sect ptr other := by
  refine ⟨hspares.elsewhere hg hdir h.entry, ?_, fun c hc hmem => ?_, ?_⟩
  · rw [hsect, hptr]
    exact h.slots
  · exact hused c hc ((hspares.ext.fresh c hmem).resolve_left (h.apart c hc))
  · rw [hsect]
    exact h.dir

theorem Beside.over (h : Beside g v cs base sect ptr other) (hg : g.Sound)
    (hspares : Spares g base.dirSect base.dirPtr v cs v' cs') (hcs : ∀ c ∈ other, g.Cluster c)
    (hused : ∀ c ∈ other, g.table v c ≠ 0) (hq : FileHas g other q) :
    fp.over v' (fileSect g other q) = fp.over v (fileSect g other q) := by
  unfold Fil.over
  split
  · rw [Function.update_apply, Function.update_apply, h.sectors hg hspares hcs hused hq]
  · exact h.sectors hg hspares hcs hused hq

theorem Streaming.beside (h : Streaming g (fp.over v) other ⟨fs, dev, fp⟩ behind) (hg : g.Sound)
    (hbeside : Beside g v cs base fp.dirSect fp.dirPtr other)
    (hspares : Spares g base.dirSect base.dirPtr v cs v' cs') (hdir : ¬g.InFat base.dirSect)
    (hshows : Presents g v' fs' dev')
    (hwin : ∀ q, FileHas g other q → fs'.winsect ≠ fileSect g other q) :
    Streaming g (fp.over v') other ⟨fs', dev', fp⟩ true ∧
      fp.content g other (fp.over v') = fp.content g other (fp.over v) := by
  have hopened : Opened g (fp.over v) fs dev fp other := h.opened
  have hslot : Slot g (fp.over v) other fp.toFilBase := h.slot
  have hcs := hopened.clusters
  have hover : ∀ c, g.Cluster c → g.table (fp.over v) c = g.table v c :=
    fun c hc => hopened.table_over hg hc
  have hused : ∀ c ∈ other, g.table v c ≠ 0 := fun c hc =>
    hover c (hcs c hc) ▸ hopened.used c hc
  have htable : ∀ c ∈ other, g.table (fp.over v') c = g.table (fp.over v) c := by
    intro c hc
    rw [hover c (hcs c hc), hopened.table_over hg (hcs c hc)]
    exact hbeside.table hg hspares hdir hcs hused c hc
  have hsame : ∀ q, FileHas g other q →
      fp.over v' (fileSect g other q) = fp.over v (fileSect g other q) :=
    fun q hq => hbeside.over hg hspares hcs hused hq
  refine ⟨⟨⟨hopened.toPlaced.beside hshows hwin, ⟨?_, hopened.size, hopened.small⟩, hopened.noErr,
    hopened.fptr, hopened.clust, hopened.inBuf, fun hdsect => ?_⟩,
    hslot.beside hg hopened.toPlaced (hspares.used hg hdir), fun hchanged => ?_,
    fun _ hno => absurd hno (by decide)⟩, fileBytes_of_sectors hopened.size hsame⟩
  · exact hopened.chain.imp_right fun hchain => ⟨hchain.1, hchain.2.frame fun k hk => htable k hk⟩
  · obtain ⟨⟨q, hq, hsect⟩, hbuf⟩ := hopened.buffer hdsect
    refine ⟨⟨q, hq, hsect⟩, hbuf.trans ?_⟩
    dsimp only
    rw [hsect, hsame q hq]
  · obtain ⟨hclean, hfile⟩ := h.saved hchanged
    refine ⟨hclean, ?_⟩
    dsimp only [Fil.content] at hfile hclean ⊢
    rw [fileBytes_of_sectors hopened.size hsame]
    simp only [Fil.over_clean hclean] at hfile ⊢
    exact hspares.fileAt hg hdir hfile hbeside

theorem Ended.beside (h : Ended g (fp.over v) other ⟨fs, dev, fp⟩) (hg : g.Sound)
    (hused : ∀ c, g.Cluster c → g.table v c ≠ 0 → g.table v' c ≠ 0)
    (hshows : Presents g v' fs' dev')
    (hwin : ∀ q, FileHas g other q → fs'.winsect ≠ fileSect g other q) :
    Ended g (fp.over v') other ⟨fs', dev', fp⟩ := by
  have hplaced : Placed g (fp.over v) fs dev fp other := h.placed
  have hslot : Slot g (fp.over v) other fp.toFilBase := h.slot
  refine ⟨hplaced.beside hshows hwin, hslot.beside hg hplaced hused, fun c hc => ?_, h.failed⟩
  have hcluster := hplaced.clusters c hc
  have hbefore := h.used c hc
  rw [hplaced.table_over hg hcluster] at hbefore ⊢
  exact hused c hcluster hbefore

theorem Standing.beside (h : Standing g (fp.over v) other ⟨fs, dev, fp⟩ behind) (hg : g.Sound)
    (hbeside : Beside g v cs base fp.dirSect fp.dirPtr other)
    (hspares : Spares g base.dirSect base.dirPtr v cs v' cs') (hdir : ¬g.InFat base.dirSect)
    (hshows : Presents g v' fs' dev')
    (hwin : ∀ q, FileHas g other q → fs'.winsect ≠ fileSect g other q) :
    Standing g (fp.over v') other ⟨fs', dev', fp⟩ true ∧
      fp.stream g (fp.over v') other true =
        { fp.stream g (fp.over v) other behind with behind := true } := by
  rcases h with h | h
  · obtain ⟨hstill, hcontent⟩ := h.beside hg hbeside hspares hdir hshows hwin
    refine ⟨.inl hstill, ?_⟩
    simp only [Fil.stream, hcontent]
  · have herr : fp.err ≠ .ok := h.failed
    refine ⟨.inr (h.beside hg (hspares.used hg hdir) hshows hwin), ?_⟩
    rw [Fil.stream_err herr, Fil.stream_err herr]

theorem Standing.window {w : Sectors} {s s' : FileState} {e : FileEvent} {P : Nat → Prop}
    (h : Standing g w cs s behind) (hg : g.Sound) (hP : Allows g P) (hdir : P s.fp.dirSect)
    (hwin : P s.fs.winsect) (hstep : fileStep s e s') : P s'.fs.winsect := by
  obtain ⟨v, hshows, -⟩ := h.placed.shows
  have hstart : Around g P s.fs := ⟨hshows.geometry, hwin⟩
  cases hatt : s.fp.attached with
  | false =>
    obtain ⟨-, rfl⟩ := (refused_closed hatt e.call).step hstep
    exact hwin
  | true =>
    have hsynced : ∀ {r dev' w'}, Synchronized g w s.fs s.fp cs r s'.fs dev' w' →
        P s'.fs.winsect := by
      intro r dev' w' hsynced
      rcases hsynced.window with hsame | hentry | hnone | hbelow
      · rwa [hsame]
      · rwa [hentry]
      · rw [hnone]
        exact hP.none
      · exact hP.low _ hbelow
    obtain ⟨-, hrun, -⟩ := hstep
    obtain ⟨⟨call, answer⟩, failed, full, reserved⟩ := e
    by_cases hcall : call = .fSync ∨ call = .fClose
    · rcases hcall with rfl | rfl
      · obtain ⟨w', hend⟩ := (ensures_fSync hg h.placed hatt h.slot).executes hrun.forget
        exact hsynced hend
      · obtain ⟨fp₁, w', hend, -⟩ := (ensures_fClose hg h.placed hatt h.slot).executes hrun.forget
        exact hsynced hend
    · obtain ⟨hsync, hclose⟩ := not_or.mp hcall
      exact ((maintains_access hg hP _ hsync hclose).executes hstart hrun).1.winsect

end Beside

structure Shared (ι : Type) where
  fs : Fatfs
  dev : Device
  fils : ι → Fil

def Shared.file {ι : Type} (s : Shared ι) (i : ι) : FileState := ⟨s.fs, s.dev, s.fils i⟩

def sharedStep {ι : Type} (s : Shared ι) (l : ι × FileEvent) (s' : Shared ι) : Prop :=
  fileStep (s.file l.1) l.2 (s'.file l.1) ∧ ∀ j, j ≠ l.1 → s'.fils j = s.fils j

section Shared
variable {ι : Type} {g : Geometry} {v v' : Sectors} {s s' : Shared ι}
  {cs : ι → List Nat} {i j : ι} {t : List (ι × FileEvent)} {behind : Bool}

/-- Each file has clusters and an entry of its own, whether or not an error has ended its use. -/
structure Sharing (g : Geometry) (v : Sectors) (s : Shared ι) (cs : ι → List Nat) : Prop where
  shows : Presents g v s.fs s.dev
  standing : ∀ i, ∃ behind, Standing g ((s.fils i).over v) (cs i) (s.file i) behind
  beside : ∀ i j, i ≠ j → Beside g v (cs i) (s.fils i).toFilBase (s.fils j).dirSect
    (s.fils j).dirPtr (cs j)

theorem Standing.used {w : Sectors} {cs : List Nat} {s : FileState}
    (h : Standing g w cs s behind) : ∀ c ∈ cs, g.table w c ≠ 0 :=
  h.elim (fun h => h.opened.used) Ended.used

theorem Sharing.table_over (h : Sharing g v s cs) (hg : g.Sound) (i : ι) {c : Nat}
    (hc : g.Cluster c) : g.table ((s.fils i).over v) c = g.table v c := by
  obtain ⟨_, hi⟩ := h.standing i
  exact hi.placed.table_over hg hc

theorem Sharing.used (h : Sharing g v s cs) (hg : g.Sound) (i : ι) :
    ∀ c ∈ cs i, g.table v c ≠ 0 := by
  obtain ⟨_, hi⟩ := h.standing i
  intro c hc
  rw [← h.table_over hg i (hi.placed.clusters c hc)]
  exact hi.used c hc

theorem Sharing.entry (h : Sharing g v s cs) (hg : g.Sound) (i j : ι) :
    Elsewhere g v (cs i) (s.fils j).dirSect := by
  by_cases heq : i = j
  · subst heq
    obtain ⟨_, hi⟩ := h.standing i
    exact hi.slot.elsewhere.congr fun c hc => (h.table_over hg i hc).symm
  · exact (h.beside i j heq).entry

theorem Sharing.window (h : Sharing g v s cs) (hg : g.Sound) {l : ι × FileEvent}
    (hstep : sharedStep s l s') (j : ι) {q : Nat} (hq : FileHas g (cs j) q) :
    s'.fs.winsect ≠ fileSect g (cs j) q := by
  obtain ⟨_, hl⟩ := h.standing l.1
  obtain ⟨_, hj⟩ := h.standing j
  have hdata := hj.placed.data hg hq
  refine hl.window (P := fun n => n ≠ fileSect g (cs j) q) hg ⟨fun n hn => ?_, fun n hn => ?_, ?_⟩
    ((h.entry hg j l.1).ne hg hj.placed.clusters hq) (hj.placed.apart q hq) hstep.1
  · rintro rfl
    exact hdata.not_inFat hg hn
  · have hlow := hdata.low
    omega
  · have hhigh := hdata.high
    unfold noSector
    omega

theorem Sharing.update [DecidableEq ι] (h : Sharing g v s cs) (hg : g.Sound) {l : ι × FileEvent}
    (hstep : sharedStep s l s') {w' : Sectors} {cs' : List Nat}
    (hwithin : Within g ((s.fils l.1).over v) (cs l.1) (s.fils l.1) w' cs' (s'.fils l.1))
    (hnext : Standing g w' cs' (s'.file l.1) behind) :
    ∃ v', (s'.fils l.1).over v' = w' ∧
      Spares g (s.fils l.1).dirSect (s.fils l.1).dirPtr v (cs l.1) v' cs' ∧
      Sharing g v' s' (Function.update cs l.1 cs') ∧
      ∀ j, j ≠ l.1 → ∀ behind, Standing g ((s.fils j).over v) (cs j) (s.file j) behind →
        Standing g ((s'.fils j).over v') (cs j) (s'.file j) true ∧
          (s'.fils j).stream g ((s'.fils j).over v') (cs j) true =
            { (s.fils j).stream g ((s.fils j).over v) (cs j) behind with behind := true } := by
  obtain ⟨i, e⟩ := l
  obtain ⟨hcall, hothers⟩ := hstep
  dsimp only at *
  obtain ⟨_, hi⟩ := h.standing i
  have hplaced := hi.placed
  have hdir := hi.slot.elsewhere
  have hplaced' := hnext.placed
  obtain ⟨v', hshows, rfl⟩ := hplaced'.shows
  have hspares : Spares g (s.fils i).dirSect (s.fils i).dirPtr v (cs i) v' cs' := by
    have hall := hwithin.spares hg hi.slot hplaced'.clusters (.refl _ _)
    rw [hwithin.dirSect, hwithin.dirPtr] at hall
    exact hall.under hg hplaced hplaced' hdir
  have hused := hspares.used hg hdir.outside
  have hstill : ∀ j, j ≠ i → ∀ behind,
      Standing g ((s.fils j).over v) (cs j) (s.file j) behind →
        Standing g ((s'.fils j).over v') (cs j) (s'.file j) true ∧
          (s'.fils j).stream g ((s'.fils j).over v') (cs j) true =
            { (s.fils j).stream g ((s.fils j).over v) (cs j) behind with behind := true } := by
    intro j hj behind hstanding
    rw [Shared.file, hothers j hj]
    exact hstanding.beside hg (h.beside i j (Ne.symm hj)) hspares hdir.outside hshows
      fun q hq => h.window hg (l := (i, e)) ⟨hcall, hothers⟩ j hq
  refine ⟨v', rfl, hspares, ⟨hshows, fun j => ?_, fun j k hjk => ?_⟩, hstill⟩
  · by_cases hj : j = i
    · subst hj
      rw [Function.update_self]
      exact ⟨_, hnext⟩
    · rw [Function.update_of_ne hj]
      obtain ⟨behind', hstanding⟩ := h.standing j
      exact ⟨true, (hstill j hj behind' hstanding).1⟩
  · have hbeside := h.beside j k hjk
    by_cases hj : j = i
    · subst hj
      have hk := Ne.symm hjk
      rw [Function.update_self, Function.update_of_ne hk, hothers k hk]
      exact hbeside.grow hg hspares hdir.outside (h.used hg k) hwithin.dirSect hwithin.dirPtr
    · rw [Function.update_of_ne hj, hothers j hj]
      by_cases hk : k = i
      · subst hk
        rw [Function.update_self, hwithin.dirSect, hwithin.dirPtr]
        refine ⟨hbeside.entry.mono hused, hbeside.slots, fun c hc hmem => ?_, fun q hq heq => ?_⟩
        · have hnot := fun hold => hbeside.apart c hold hmem
          exact h.used hg j c hmem ((hspares.ext.fresh c hc).resolve_left hnot)
        · have helsewhere : Elsewhere g v' cs' (s.fils j).dirSect :=
            hspares.elsewhere hg hdir.outside (h.entry hg k j)
          exact helsewhere.ne hg hplaced'.clusters hq heq.symm
      · rw [Function.update_of_ne hk, hothers k hk]
        exact ⟨hbeside.entry.mono hused, hbeside.slots, hbeside.apart, hbeside.dir⟩

variable [DecidableEq ι]

/-- The calls on one file among all; of the others it is known only that they are made. -/
def heard (i : ι) (l : ι × FileEvent) : Option FileEvent := if l.1 = i then some l.2 else none

/-- The calls on other files change nothing, but leave something to be written back. -/
def Stream.hear (σ : Stream) (label : Option FileEvent) (σ' : Stream) : Prop :=
  match label with
  | some e => streamStep σ e σ'
  | none => σ' = { σ with behind := true }

def Hearing (g : Geometry) (i : ι) (base : FilBase) (s : Shared ι) (σ : Stream) : Prop :=
  ∃ v cs behind, Sharing g v s cs ∧ Standing g ((s.fils i).over v) (cs i) (s.file i) behind ∧
    (s.fils i).dirSect = base.dirSect ∧ (s.fils i).dirPtr = base.dirPtr ∧
    (s.fils i).stream g ((s.fils i).over v) (cs i) behind = σ

theorem Hearing.step {base : FilBase} {σ : Stream} {l : ι × FileEvent} (h : Hearing g i base s σ)
    (hg : g.Sound) (hstep : sharedStep s l s') :
    ∃ σ', σ.hear (heard i l) σ' ∧ Hearing g i base s' σ' := by
  obtain ⟨v, cs, behind, hsharing, hstanding, hsect, hptr, rfl⟩ := h
  by_cases hmine : l.1 = i
  · subst hmine
    obtain ⟨_, cs', behind', hwithin, hstream, hnext⟩ := hstanding.step hg hstep.1
    obtain ⟨v', rfl, -, hnow, -⟩ := hsharing.update hg hstep hwithin hnext
    have hcs : Function.update cs l.1 cs' l.1 = cs' := Function.update_self ..
    refine ⟨_, ?_, v', _, behind', hnow, by rwa [hcs], hwithin.dirSect.trans hsect,
      hwithin.dirPtr.trans hptr, rfl⟩
    rw [heard, if_pos rfl, hcs]
    exact hstream
  · obtain ⟨_, hother⟩ := hsharing.standing l.1
    obtain ⟨_, cs', _, hwithin, -, hnext⟩ := hother.step hg hstep.1
    obtain ⟨v', -, -, hnow, hothers⟩ := hsharing.update hg hstep hwithin hnext
    obtain ⟨hstill, hstream⟩ := hothers i (Ne.symm hmine) behind hstanding
    have hcs : Function.update cs l.1 cs' i = cs i := Function.update_of_ne (Ne.symm hmine) ..
    have hfil := hstep.2 i (Ne.symm hmine)
    refine ⟨_, ?_, v', _, true, hnow, by rwa [hcs], by rw [hfil, hsect], by rw [hfil, hptr], rfl⟩
    rw [heard, if_neg hmine, hcs]
    exact hstream

/-- Whatever the order of the calls on all files, and whatever the device does, a file is a byte
stream; and as long as it has no error, with nothing of it to be synchronized the device alone has
it, as soon as nothing is to be written back. -/
theorem share_run (hg : g.Sound) (h : Sharing g v s cs)
    (hi : Streaming g ((s.fils i).over v) (cs i) (s.file i) behind)
    (hrun : Follows sharedStep s t s') :
    ∃ σ cs', Follows Stream.hear ((s.fils i).stream g ((s.fils i).over v) (cs i) behind)
        (t.map (heard i)) σ ∧
      (σ.err = .ok → σ.changed = false → σ.behind = false ∨ s'.fs.wflag = false →
        FileAt g s'.dev.sectors (s.fils i).dirSect (s.fils i).dirPtr σ.data cs') := by
  obtain ⟨_, hfollows, v', cs', behind', -, hend, hsect, hptr, rfl⟩ :=
    hrun.refines (Hearing g i (s.fils i).toFilBase) (heard i)
      (fun _ _ _ _ hearing hstep => hearing.step hg hstep)
      ⟨v, cs, behind, h, .inl hi, rfl, rfl, rfl⟩
  refine ⟨_, cs' i, hfollows, fun herr hchanged hrest => ?_⟩
  rcases hend with hend | hend
  · rw [Fil.stream_ok herr, ← hsect, ← hptr]
    exact hend.onDevice hg hchanged (hrest.elim (fun hbehind => hend.rest hchanged hbehind) id)
  · exact absurd herr hend.failed

def twoFiles : Shared Bool where
  fs := (blank floppy).1
  dev := (blank floppy).2
  fils i := newFil floppy (if i then 32 else 0)

theorem sharing_twoFiles : Sharing floppy (fun _ => .zero) twoFiles fun _ => [] where
  shows := blank_shows floppy
  standing i := ⟨false, .inl (streaming_new (by cases i <;> decide))⟩
  beside i j hij := by
    refine ⟨floppy_root _ _, .inr ?_, by simp, fun q hq => absurd hq (by simp [FileHas])⟩
    cases i <;> cases j <;> simp_all [twoFiles, newFil]

theorem twoFiles_run : ∃ (t : List (Bool × FileEvent)) (s' : Shared Bool),
    t.map (fun l => (l.1, l.2.toEvent)) = [(false, ⟨.fWrite [72], (.ok, 1)⟩),
      (true, ⟨.fWrite [74], (.ok, 1)⟩), (false, ⟨.fWrite [105], (.ok, 1)⟩), (true, ⟨.fSync, .ok⟩),
      (false, ⟨.fSync, .ok⟩)] ∧
    Follows sharedStep twoFiles t s' ∧ s'.fs.wflag = false := by
  obtain ⟨fs, dev, hplay⟩ := exists_executes_quiet
    (s := (blank floppy).1) (w := (blank floppy).2)
    (p := do
      let r ← (FileCall.fWrite [72]).run (newFil floppy 0)
      let r' ← (FileCall.fWrite [74]).run (newFil floppy 32)
      let r₁ ← (FileCall.fWrite [105]).run r.2
      let r₂ ← FileCall.fSync.run r'.2
      let r₃ ← FileCall.fSync.run r₁.2
      let fs ← get
      pure ([r.1, r'.1, r₁.1], [r₂.1, r₃.1], fs.wflag))
    (a := ([(.ok, 1), (.ok, 1), (.ok, 1)], [.ok, .ok], false)) Device.serve_step Device.serve_quiet
    (by decide +kernel)
  simp only [executes_bind_quiet, executes_pure, executes_get, Prod.mk.injEq, List.cons.injEq,
    and_true] at hplay
  obtain ⟨⟨_, fp₁⟩, fs₁, dev₁, hwrite, ⟨_, fp₂⟩, fs₂, dev₂, hwrite', ⟨_, fp₃⟩, fs₃, dev₃, hwrite₂,
    ⟨_, fp₄⟩, fs₄, dev₄, hsync, ⟨_, fp₅⟩, _, _, hsync', _, _, _, ⟨rfl, rfl, rfl⟩,
    ⟨⟨rfl, rfl, rfl⟩, ⟨rfl, rfl⟩, hrest⟩, rfl, rfl⟩ := hplay
  obtain ⟨_, _, hwrite⟩ := fileStep_quiet (by decide) hwrite
  obtain ⟨_, _, hwrite'⟩ := fileStep_quiet (by decide) hwrite'
  obtain ⟨_, _, hwrite₂⟩ := fileStep_quiet (by decide) hwrite₂
  obtain ⟨_, _, hsync⟩ := fileStep_quiet (by decide) hsync
  obtain ⟨_, _, hsync'⟩ := fileStep_quiet (by decide) hsync'
  refine ⟨[(false, _), (true, _), (false, _), (true, _), (false, _)],
    ⟨fs, dev, fun i => if i = true then fp₄ else fp₅⟩, rfl,
    ⟨⟨fs₁, dev₁, fun i => if i = true then newFil floppy 32 else fp₁⟩, ⟨hwrite, ?_⟩,
      ⟨fs₂, dev₂, fun i => if i = true then fp₂ else fp₁⟩, ⟨hwrite', ?_⟩,
      ⟨fs₃, dev₃, fun i => if i = true then fp₂ else fp₃⟩, ⟨hwrite₂, ?_⟩,
      ⟨fs₄, dev₄, fun i => if i = true then fp₄ else fp₃⟩, ⟨hsync, ?_⟩,
      ⟨fs, dev, fun i => if i = true then fp₄ else fp₅⟩, ⟨hsync', ?_⟩, rfl⟩, hrest.symm⟩ <;>
  · intro j hj
    cases j <;> simp_all [twoFiles]

theorem share_run_floppy : ∃ (t : List (Bool × FileEvent)) (dev : Device) (σ : Stream)
    (cs' : List Nat), Follows Stream.hear ⟨true, .ok, true, true, [], 0, false, false⟩
        (t.map (heard false)) σ ∧
      t.map (fun l => (l.1, l.2.toEvent)) = [(false, ⟨.fWrite [72], (.ok, 1)⟩),
        (true, ⟨.fWrite [74], (.ok, 1)⟩), (false, ⟨.fWrite [105], (.ok, 1)⟩),
        (true, ⟨.fSync, .ok⟩), (false, ⟨.fSync, .ok⟩)] ∧
      (σ.err = .ok → σ.changed = false → FileAt floppy dev.sectors 19 0 σ.data cs') := by
  obtain ⟨t, s', hcalls, hrun, hrest⟩ := twoFiles_run
  obtain ⟨σ, cs', hfollows, hsaved⟩ := share_run (i := false) floppy_sound sharing_twoFiles
    (streaming_new (by decide)) hrun
  exact ⟨t, s'.dev, σ, cs', hfollows, hcalls,
    fun herr hchanged => hsaved herr hchanged (.inr hrest)⟩

/-- Whatever the order of the calls, whatever the device does, and whether or not calls fail, all
files that are not open stay what they are. -/
theorem spare_run (hg : g.Sound) (h : Sharing g v s cs) (hrun : Follows sharedStep s t s') :
    ∃ v', Presents g v' s'.fs s'.dev ∧ ∀ sect ptr content other,
      FileAt g v sect ptr content other →
      (∀ i, Beside g v (cs i) (s.fils i).toFilBase sect ptr other) →
      FileAt g v' sect ptr content other := by
  obtain ⟨v', cs', hsharing, hfiles⟩ := hrun.invariant
    (fun s' => ∃ v' cs', Sharing g v' s' cs' ∧ ∀ sect ptr content other,
      FileAt g v sect ptr content other →
      (∀ i, Beside g v (cs i) (s.fils i).toFilBase sect ptr other) →
      FileAt g v' sect ptr content other ∧
        ∀ i, Beside g v' (cs' i) (s'.fils i).toFilBase sect ptr other)
    (by
      rintro s₁ ⟨i, e⟩ s₂ ⟨v₁, cs₁, hsharing, hfiles⟩ hstep
      obtain ⟨_, hi⟩ := hsharing.standing i
      obtain ⟨w₂, cs₂, _, hwithin, -, hnext⟩ := hi.step hg hstep.1
      obtain ⟨v₂, -, hspares, hnow, -⟩ := hsharing.update hg hstep hwithin hnext
      refine ⟨v₂, _, hnow, fun sect ptr content other hfile hbeside => ?_⟩
      obtain ⟨hfile₁, hbeside₁⟩ := hfiles sect ptr content other hfile hbeside
      have hdir := hi.slot.elsewhere.outside
      refine ⟨hspares.fileAt hg hdir hfile₁ (hbeside₁ i), fun j => ?_⟩
      by_cases hj : j = i
      · subst hj
        rw [Function.update_self]
        exact (hbeside₁ j).grow hg hspares hdir hfile₁.used hwithin.dirSect hwithin.dirPtr
      · rw [Function.update_of_ne hj, hstep.2 j hj]
        exact ⟨(hbeside₁ j).entry.mono (hspares.used hg hdir), (hbeside₁ j).slots,
          (hbeside₁ j).apart, (hbeside₁ j).dir⟩)
    ⟨v, cs, h, fun _ _ _ _ hfile hbeside => ⟨hfile, hbeside⟩⟩
  exact ⟨v', hsharing.shows, fun sect ptr content other hfile hbeside =>
    (hfiles sect ptr content other hfile hbeside).1⟩

theorem spare_run_floppy : ∃ (s' : Shared Bool) (v' : Sectors),
    Presents floppy v' s'.fs s'.dev ∧ FileAt floppy v' 19 64 [] [] := by
  obtain ⟨t, s', -, hrun, -⟩ := twoFiles_run
  obtain ⟨v', hshows, hfiles⟩ := spare_run floppy_sound sharing_twoFiles hrun
  refine ⟨s', v', hshows, hfiles 19 64 [] [] (fileAt_blank 64) fun i => ?_⟩
  refine ⟨floppy_root _ _, .inr ?_, by simp, fun q hq => absurd hq (by simp [FileHas])⟩
  cases i <;> simp [twoFiles, newFil]

end Shared

end FtpServer

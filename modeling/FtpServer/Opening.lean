import FtpServer.Volume

/-! What a slash at the end of a path does to `f_opendir`. FatFs reads a path up to its first
byte of 0x20 or less; a slash it reaches at the end leaves an empty name, which it rejects. -/

namespace FtpServer
open CString

/-- A byte at which FatFs stops reading. -/
def Stops (path : Bytes) : Prop := ∃ c ∈ path, c ≤ byte ' '

instance (path : Bytes) : Decidable (Stops path) := List.decidableBEx (· ≤ byte ' ') path

theorem not_stops_iff (path : Bytes) : ¬Stops path ↔ ∀ c ∈ path, byte ' ' < c := by
  simp [Stops]

theorem endsSegment_of_le {c : Byte} (h : c ≤ byte ' ') : endsSegment c = true := by
  simp [endsSegment, h]

theorem le_of_not_separator {c : Byte} (h : isSeparator c = true) : ¬c ≤ byte ' ' := by
  simp only [isSeparator, Bool.or_eq_true, decide_eq_true_eq] at h
  rcases h with rfl | rfl <;> decide

section Names

theorem segment_last_iff (c : Byte) (b : UInt8) :
    ((if c ≤ byte ' ' then nsLast else 0) ||| (if b &&& 0x03 = 0x01 then nsExt else 0) |||
      (if b &&& 0x0c = 0x04 then nsBody else 0)) &&& nsLast ≠ 0 ↔ c ≤ byte ' ' := by
  by_cases hc : c ≤ byte ' ' <;> by_cases hext : b &&& 0x03 = 0x01 <;>
    by_cases hbody : b &&& 0x0c = 0x04 <;> simp only [hc, hext, hbody, if_true, if_false] <;> decide

theorem createName_cases {path : Bytes} {seg : Segment} (h : createName path = .ok seg) :
    ∃ c st, createNameLoop nameStart (path.dropWhile isSeparator) = .ok (c, seg.rest, st) ∧
      st.i ≠ 0 ∧ (seg.last = true ↔ c ≤ byte ' ') := by
  unfold createName at h
  cases hloop : createNameLoop nameStart (path.dropWhile isSeparator) with
  | error rc => rw [hloop] at h; cases h
  | ok answer =>
    obtain ⟨c, rest, st⟩ := answer
    rw [hloop] at h
    by_cases hi : st.i = 0
    · simp [finishName, hi] at h
    · simp only [finishName, hi, if_false, Except.ok.injEq] at h
      subst h
      refine ⟨c, st, rfl, hi, ?_⟩
      rw [Segment.last, decide_eq_true_iff]
      exact segment_last_iff c _

theorem createNameLoop_append {p : Bytes} (h : ∃ c ∈ p, endsSegment c = true) (st : NameState)
    (t : Bytes) : createNameLoop st (p ++ t) =
      (createNameLoop st p).map fun answer => (answer.1, answer.2.1 ++ t, answer.2.2) := by
  induction p generalizing st with
  | nil => simp at h
  | cons c p ih =>
    by_cases hc : endsSegment c = true
    · simp [createNameLoop, hc, Except.map]
    · have hrest : ∃ d ∈ p, endsSegment d = true := by simpa [hc] using h
      simp only [List.cons_append, createNameLoop, hc, Bool.false_eq_true, if_false]
      cases nameChar st c with
      | error rc => rfl
      | ok st' => exact ih hrest st'

theorem createNameLoop_cons {p : Bytes} {st st' : NameState} {d c : Byte} {rest : Bytes}
    (hloop : createNameLoop st (d :: p) = .ok (c, rest, st')) :
    (endsSegment d = true ∧ c = d ∧ rest = p ∧ st' = st) ∨
    (endsSegment d = false ∧ ∃ st₁, nameChar st d = .ok st₁ ∧
      createNameLoop st₁ p = .ok (c, rest, st')) := by
  unfold createNameLoop at hloop
  cases hd : endsSegment d with
  | true =>
    simp only [hd, if_true, Except.ok.injEq, Prod.mk.injEq] at hloop
    exact .inl ⟨rfl, hloop.1.symm, hloop.2.1.symm, hloop.2.2.symm⟩
  | false =>
    simp only [hd, Bool.false_eq_true, if_false] at hloop
    cases hchar : nameChar st d with
    | error rc => rw [hchar] at hloop; cases hloop
    | ok st₁ =>
      rw [hchar] at hloop
      exact .inr ⟨rfl, st₁, rfl, hloop⟩

theorem createNameLoop_stops {p : Bytes} (h : Stops p) {st st' : NameState} {c : Byte}
    {rest : Bytes} (hloop : createNameLoop st p = .ok (c, rest, st')) :
    c ≤ byte ' ' ∨ Stops rest := by
  induction p generalizing st with
  | nil => simp [Stops] at h
  | cons d p ih =>
    rcases createNameLoop_cons hloop with ⟨-, rfl, rfl, -⟩ | ⟨hd, st₁, -, hrest⟩
    · simpa [Stops] using h
    · have hgreater : ¬d ≤ byte ' ' := fun hle => by simp [endsSegment_of_le hle] at hd
      exact ih (by simpa [Stops, hgreater] using h) hrest

theorem Stops.dropSeparators {p : Bytes} (h : Stops p) : Stops (p.dropWhile isSeparator) := by
  obtain ⟨c, hc, hle⟩ := h
  have hsplit := List.takeWhile_append_dropWhile (p := isSeparator) (l := p)
  rw [← hsplit] at hc
  rcases List.mem_append.mp hc with hc | hc
  · exact absurd hle (le_of_not_separator (List.mem_takeWhile_imp hc))
  · exact ⟨c, hc, hle⟩

theorem createName_append {p : Bytes} (h : Stops p) (t : Bytes) :
    createName (p ++ t) = (createName p).map fun seg => { seg with rest := seg.rest ++ t } := by
  obtain ⟨d, hd, hle⟩ := h.dropSeparators
  have hdrop : (p ++ t).dropWhile isSeparator = p.dropWhile isSeparator ++ t := by
    rw [List.dropWhile_append]
    split
    · rename_i hempty
      rw [List.isEmpty_iff.mp hempty] at hd
      cases hd
    · rfl
  rw [createName, createName, hdrop,
    createNameLoop_append ⟨d, hd, endsSegment_of_le hle⟩ nameStart t]
  cases createNameLoop nameStart (p.dropWhile isSeparator) with
  | error rc => rfl
  | ok answer =>
    obtain ⟨c, rest, st⟩ := answer
    by_cases hi : st.i = 0 <;> simp [Except.map, finishName, hi]

theorem createNameLoop_shorter {p : Bytes} {st st' : NameState} {c : Byte} {rest : Bytes}
    (hloop : createNameLoop st p = .ok (c, rest, st')) :
    rest.length < p.length ∨ p = [] ∧ rest = [] ∧ st' = st := by
  induction p generalizing st with
  | nil =>
    simp only [createNameLoop, Except.ok.injEq, Prod.mk.injEq] at hloop
    exact .inr ⟨rfl, hloop.2.1.symm, hloop.2.2.symm⟩
  | cons d p ih =>
    left
    rcases createNameLoop_cons hloop with ⟨-, -, rfl, -⟩ | ⟨-, st₁, -, hrest⟩
    · simp
    · rcases ih hrest with hshort | ⟨-, rfl, -⟩
      · exact lt_trans hshort (by simp)
      · simp

theorem createName_shorter {path : Bytes} {seg : Segment} (h : createName path = .ok seg) :
    seg.rest.length < path.length := by
  obtain ⟨c, st, hloop, hi, -⟩ := createName_cases h
  have hdrop := (List.dropWhile_suffix (l := path) isSeparator).length_le
  rcases createNameLoop_shorter hloop with hshort | ⟨-, -, rfl⟩
  · omega
  · exact absurd rfl hi

/-- A path that is read to its end, where it has a slash or nothing left. -/
def Dangling (path : Bytes) : Prop :=
  ¬Stops path ∧ (path = [] ∨ path.getLast? = some slash)

theorem Dangling.tail {c : Byte} {path : Bytes} (h : Dangling (c :: path)) : Dangling path := by
  obtain ⟨hreads, hend⟩ := h
  refine ⟨fun hstops => hreads ?_, ?_⟩
  · obtain ⟨d, hd, hle⟩ := hstops
    exact ⟨d, by simp [hd], hle⟩
  · cases path with
    | nil => exact .inl rfl
    | cons d path => simpa [List.getLast?_cons_cons] using hend

theorem Dangling.dropSeparators {path : Bytes} (h : Dangling path) :
    Dangling (path.dropWhile isSeparator) := by
  induction path with
  | nil => exact h
  | cons c path ih =>
    by_cases hc : isSeparator c = true
    · rw [List.dropWhile_cons_of_pos hc]
      exact ih h.tail
    · rwa [List.dropWhile_cons_of_neg hc]

theorem createNameLoop_dangling {p : Bytes} (h : Dangling p) (hne : p ≠ []) {st st' : NameState}
    {c : Byte} {rest : Bytes} (hloop : createNameLoop st p = .ok (c, rest, st')) :
    byte ' ' < c ∧ Dangling rest := by
  induction p generalizing st with
  | nil => exact absurd rfl hne
  | cons d p ih =>
    rcases createNameLoop_cons hloop with ⟨-, rfl, rfl, -⟩ | ⟨hd, st₁, -, hrest⟩
    · exact ⟨(not_stops_iff _).mp h.1 c (by simp), h.tail⟩
    · refine ih h.tail ?_ hrest
      rintro rfl
      obtain rfl : d = slash := by simpa using h.2
      exact absurd hd (by decide)

theorem createName_dangling {path : Bytes} (h : Dangling path) {seg : Segment}
    (hseg : createName path = .ok seg) : seg.last = false ∧ Dangling seg.rest := by
  obtain ⟨c, st, hloop, hi, hlast⟩ := createName_cases hseg
  by_cases hempty : path.dropWhile isSeparator = []
  · rw [hempty, createNameLoop] at hloop
    simp only [Except.ok.injEq, Prod.mk.injEq] at hloop
    exact absurd (hloop.2.2 ▸ rfl : st.i = 0) hi
  · obtain ⟨hgreater, hrest⟩ := createNameLoop_dangling h.dropSeparators hempty hloop
    refine ⟨?_, hrest⟩
    rw [← Bool.not_eq_true, hlast]
    exact UInt8.not_le.mpr hgreater

end Names

section Paths
variable (v : Volume)

theorem followSegment_congr {sclust : UInt32} {seg : Segment}
    {next next' : UInt32 → Except FResult DirEntry}
    (h : seg.last = false → ∀ clust, next clust = next' clust) :
    followSegment v sclust seg next = followSegment v sclust seg next' := by
  unfold followSegment
  cases hlast : seg.last with
  | true => rfl
  | false => simp only [h hlast]

theorem followSegment_ne_ok {sclust : UInt32} {seg : Segment}
    {next : UInt32 → Except FResult DirEntry} (hlast : seg.last = false)
    (h : ∀ clust dir, next clust ≠ .ok dir) (dir : DirEntry) :
    followSegment v sclust seg next ≠ .ok dir := by
  unfold followSegment
  cases dirSdi v sclust with
  | error rc => simp
  | ok dirs =>
    cases hfind : dirFind seg.fn dirs with
    | none => simp [hfind]
    | some found =>
      by_cases hattr : found.attr &&& amDir = 0
      · simp [hfind, hlast, hattr]
      · simpa [hfind, hlast, hattr] using h found.clust dir

theorem followLoop_bound {n m : Nat} {sclust : UInt32} {path : Bytes} (hn : path.length < n)
    (hm : path.length < m) : followLoop v n sclust path = followLoop v m sclust path := by
  induction n generalizing m sclust path with
  | zero => omega
  | succ n ih =>
    cases m with
    | zero => omega
    | succ m =>
      unfold followLoop
      cases hseg : createName path with
      | error rc => rfl
      | ok seg =>
        have hshort := createName_shorter hseg
        exact followSegment_congr v fun _ _ => ih (by omega) (by omega)

theorem followLoop_append {p : Bytes} (h : Stops p) (n : Nat) (sclust : UInt32) (t : Bytes) :
    followLoop v n sclust (p ++ t) = followLoop v n sclust p := by
  induction n generalizing sclust p with
  | zero => rfl
  | succ n ih =>
    unfold followLoop
    rw [createName_append h]
    cases hseg : createName p with
    | error rc => rfl
    | ok seg =>
      refine followSegment_congr v fun hlast clust => ih ?_ clust
      obtain ⟨c, st, hloop, -, hle⟩ := createName_cases hseg
      have hgreater : ¬c ≤ byte ' ' := by
        rw [← hle]
        exact ne_true_of_eq_false hlast
      exact (createNameLoop_stops h.dropSeparators hloop).resolve_left hgreater

theorem followLoop_dangling {path : Bytes} (h : Dangling path) (n : Nat) (sclust : UInt32)
    (dir : DirEntry) : followLoop v n sclust path ≠ .ok dir := by
  induction n generalizing sclust path dir with
  | zero => simp [followLoop]
  | succ n ih =>
    unfold followLoop
    cases hseg : createName path with
    | error rc => simp
    | ok seg =>
      obtain ⟨hlast, hrest⟩ := createName_dangling h hseg
      exact followSegment_ne_ok v hlast (fun clust dir => ih hrest clust dir) dir

theorem Stops.stripSeparator {path : Bytes} (h : Stops path) :
    Stops (FtpServer.stripSeparator path) := by
  cases path with
  | nil => exact h
  | cons c path =>
    rw [FtpServer.stripSeparator]
    split
    · rename_i hc
      simpa [Stops, le_of_not_separator hc] using h
    · exact h

theorem Stops.ne_nil {path : Bytes} (h : Stops path) : path ≠ [] := by
  rintro rfl
  simp [Stops] at h

theorem stripSeparator_append {p : Bytes} (h : p ≠ []) (t : Bytes) :
    stripSeparator (p ++ t) = stripSeparator p ++ t := by
  obtain ⟨c, p, rfl⟩ := List.exists_cons_of_ne_nil h
  simp only [List.cons_append, stripSeparator]
  split <;> rfl

theorem followPath_append {p : Bytes} (h : Stops p) (t : Bytes) :
    followPath v (p ++ t) = followPath v p := by
  have hstrip := h.stripSeparator
  rw [followPath, followPath, stripSeparator_append h.ne_nil]
  obtain ⟨c, q, hq⟩ := List.exists_cons_of_ne_nil hstrip.ne_nil
  rw [hq] at hstrip ⊢
  have hloop : followLoop v ((c :: q ++ t).length + 1) 0 (c :: q ++ t) =
      followLoop v ((c :: q).length + 1) 0 (c :: q) := by
    rw [followLoop_append v hstrip]
    exact followLoop_bound v (by rw [List.length_append]; omega) (by omega)
  rw [List.cons_append] at hloop ⊢
  rw [followStripped, followStripped, hloop]

theorem followPath_dangling {path : Bytes} (h : Dangling path) (hne : stripSeparator path ≠ []) :
    ∃ rc, followPath v path = .error rc := by
  have hrest : Dangling (stripSeparator path) := by
    cases path with
    | nil => exact h
    | cons c path =>
      rw [stripSeparator]
      split
      · exact h.tail
      · exact h
  obtain ⟨c, p, hp⟩ := List.exists_cons_of_ne_nil hne
  rw [hp] at hrest
  have hgreater : byte ' ' < c := (not_stops_iff _).mp hrest.1 c (by simp)
  rw [followPath, hp, followStripped, if_neg (UInt8.not_lt.mpr (UInt8.le_of_lt hgreater))]
  cases hloop : followLoop v ((c :: p).length + 1) 0 (c :: p) with
  | error rc => exact ⟨rc, rfl⟩
  | ok dir => exact absurd hloop (followLoop_dangling v hrest _ 0 dir)

end Paths

section Drives

theorem findColon_append {p : Bytes} (h : Stops p) (t : Bytes) :
    findColon (p ++ t) = findColon p := by
  induction p with
  | nil => simp [Stops] at h
  | cons c p ih =>
    simp only [List.cons_append, findColon]
    split
    · rfl
    · split
      · rfl
      · rename_i hlt
        have hgreater : ¬c ≤ byte ' ' := by
          intro hle
          exact hlt (UInt8.lt_of_le_of_lt hle (by decide))
        rw [ih (by simpa [Stops, hgreater] using h)]

theorem findColon_zero {p : Bytes} (h : findColon p = some 0) : p.head? = some (byte ':') := by
  cases p with
  | nil => cases h
  | cons c p =>
    by_cases hc : c = byte ':'
    · simp [hc]
    · by_cases hlt : c < byte '!' <;> simp [findColon, hc, hlt] at h

theorem getLdnumber_eq (path : Bytes) :
    getLdnumber path = if bytes "0:" <+: path then some (path.drop 2)
      else if findColon path = none then some path else none := by
  have hdrive : bytes "0:" = [byte '0', byte ':'] := by decide
  split
  · rename_i hprefix
    obtain ⟨rest, rfl⟩ := hprefix
    rfl
  · rename_i hprefix
    unfold getLdnumber
    cases hcolon : findColon path with
    | none => rfl
    | some tt =>
      have hno : ¬(path[0]? = some (byte '0') ∧ tt = 1) := by
        rintro ⟨hzero, rfl⟩
        cases path with
        | nil => cases hzero
        | cons c p =>
          obtain rfl : c = byte '0' := by simpa using hzero
          have hnext : findColon p = some 0 := by
            have hmap : (findColon p).map (· + 1) = some 1 := hcolon
            simpa using hmap
          obtain ⟨p, rfl⟩ := List.head?_eq_some_iff.mp (findColon_zero hnext)
          exact hprefix ⟨p, by rw [hdrive]; rfl⟩
      simp [hno]

theorem drive_prefix_append {p : Bytes} (h : Stops p) (t : Bytes) :
    bytes "0:" <+: p ++ t ↔ bytes "0:" <+: p := by
  have hdrive : bytes "0:" = [byte '0', byte ':'] := by decide
  rw [hdrive]
  cases p with
  | nil => exact absurd rfl h.ne_nil
  | cons c p =>
    cases p with
    | nil =>
      have hc : byte '0' ≠ c := by
        rintro rfl
        exact absurd h (by decide)
      simp [List.cons_prefix_cons, hc]
    | cons d p => simp [List.cons_prefix_cons]

theorem getLdnumber_append {p : Bytes} (h : Stops p) (t : Bytes) :
    getLdnumber (p ++ t) = (getLdnumber p).map (· ++ t) := by
  rw [getLdnumber_eq, getLdnumber_eq, findColon_append h]
  by_cases hprefix : bytes "0:" <+: p
  · have hlong : 2 ≤ p.length := hprefix.length_le
    rw [if_pos hprefix, if_pos ((drive_prefix_append h t).mpr hprefix),
      List.drop_append_of_le_length hlong]
    rfl
  · rw [if_neg hprefix, if_neg (fun hlonger => hprefix ((drive_prefix_append h t).mp hlonger))]
    split <;> rfl

theorem getLdnumber_stops {p q : Bytes} (h : Stops p) (hq : getLdnumber p = some q) : Stops q := by
  rw [getLdnumber_eq] at hq
  split at hq
  · rename_i hprefix
    obtain ⟨rest, rfl⟩ := hprefix
    obtain rfl : rest = q := Option.some.inj hq
    obtain ⟨c, hc, hle⟩ := h
    rcases List.mem_append.mp hc with hc | hc
    · have hall : (bytes "0:").all (fun b => byte ' ' < b) = true := by decide
      have hgreater : byte ' ' < c := by simpa using List.all_eq_true.mp hall c hc
      exact absurd hle (UInt8.not_le.mpr hgreater)
    · exact ⟨c, hc, hle⟩
  · split at hq
    · obtain rfl : p = q := Option.some.inj hq
      exact h
    · cases hq

end Drives

section Directories
variable (v : Volume)

theorem openDir_append {p : Bytes} (h : Stops p) (t : Bytes) :
    openDir v (p ++ t) = openDir v p := by
  rw [openDir, openDir, getLdnumber_append h]
  cases hq : getLdnumber p with
  | none => rfl
  | some q =>
    simp only [Option.map_some, followPath_append v (getLdnumber_stops h hq)]

theorem openDir_dangling {path q : Bytes} (hq : getLdnumber path = some q) (hdangles : Dangling q)
    (hlen : 2 ≤ q.length) : ∃ rc, openDir v path = .error rc := by
  have hstrip : stripSeparator q ≠ [] := by
    cases q with
    | nil => simp at hlen
    | cons c q =>
      rw [stripSeparator]
      split
      · rintro rfl
        simp at hlen
      · simp
  obtain ⟨rc, hpath⟩ := followPath_dangling v hdangles hstrip
  rw [openDir, hq]
  simp only [hpath]
  exact ⟨_, rfl⟩

/-- A slash that is read at the end of a path makes FatFs fail, but for the root's. -/
theorem openDir_slash {p : Bytes} (h : ¬Stops p) (hne : p ≠ []) (hdrive : p ≠ bytes "0:") :
    ∃ rc, openDir v (p ++ [slash]) = .error rc := by
  have hreads : ∀ q : Bytes, q <:+ p → Dangling (q ++ [slash]) := by
    intro q hq
    refine ⟨?_, .inr (by simp)⟩
    rw [not_stops_iff] at h ⊢
    intro c hc
    rcases List.mem_append.mp hc with hc | hc
    · exact h c (hq.subset hc)
    · rw [List.mem_singleton.mp hc]
      decide
  have hpos : 1 ≤ p.length := List.length_pos_iff.mpr hne
  by_cases hprefix : bytes "0:" <+: p ++ [slash]
  · have hfront : bytes "0:" <+: p := by
      refine (List.prefix_concat_iff.mp hprefix).resolve_left ?_
      intro hsame
      have hlast := congrArg List.getLast? hsame
      rw [List.getLast?_concat] at hlast
      exact absurd hlast (by decide)
    obtain ⟨rest, rfl⟩ := hfront
    have hrest : rest ≠ [] := by
      rintro rfl
      exact hdrive (List.append_nil _)
    have hlen : 2 ≤ (rest ++ [slash]).length := by
      have hpos' := List.length_pos_iff.mpr hrest
      rw [List.length_append, List.length_singleton]
      omega
    refine openDir_dangling v ?_ (hreads rest (List.suffix_append _ _)) hlen
    rw [getLdnumber_eq, if_pos hprefix, List.append_assoc]
    rfl
  · cases hq : getLdnumber (p ++ [slash]) with
    | none => exact ⟨.invalidDrive, by rw [openDir, hq]⟩
    | some q =>
      have hsame := hq
      rw [getLdnumber_eq, if_neg hprefix] at hsame
      split at hsame
      · obtain rfl : p ++ [slash] = q := Option.some.inj hsame
        exact openDir_dangling v hq (hreads p (List.suffix_refl p)) (by simpa using hpos)
      · cases hsame

theorem openDir_drive : openDir v (bytes "0:" ++ [slash]) = openDir v (bytes "0:") := by
  rfl

end Directories

end FtpServer

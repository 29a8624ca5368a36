import FtpServer.Request
import FtpServer.Library.Components

/-! What `do_step_down` and `do_full_path` do to the components of a path. -/

namespace FtpServer
open CString Components

theorem bytes_root : bytes "/" = [slash] := by decide

theorem lastSlash_eq_some {path : Bytes} {n i : Nat} (hi : 0 < i) (hin : i ≤ n)
    (hslash : path[i]? = some slash) (hlast : ∀ j, i < j → path[j]? ≠ some slash) :
    lastSlash path n = some i := by
  induction n with
  | zero => omega
  | succ n ih =>
    rcases Nat.lt_or_ge i (n + 1) with h | h
    · rw [lastSlash, if_neg (hlast (n + 1) h), ih (by omega)]
    · have heq : i = n + 1 := by omega
      subst heq
      rw [lastSlash, if_pos hslash]

theorem lastSlash_eq_none {path : Bytes} (h : ∀ j, 0 < j → path[j]? ≠ some slash) (n : Nat) :
    lastSlash path n = none := by
  induction n with
  | zero => rfl
  | succ n ih => rw [lastSlash, if_neg (h (n + 1) (by omega)), ih]

theorem doStepDown_cut {a b : Bytes} (ha : a ≠ []) (hb : slash ∉ b) :
    doStepDown (a ++ slash :: b) = a := by
  have hlen : 0 < a.length := List.length_pos_iff.mpr ha
  have hlast : lastSlash (a ++ slash :: b) ((a ++ slash :: b).length - 1) = some a.length := by
    refine lastSlash_eq_some hlen (by simp) (by simp) (fun j hj hslash => hb ?_)
    obtain ⟨k, rfl⟩ := Nat.exists_eq_add_of_lt hj
    have hk : b[k]? = some slash := by
      simpa [List.getElem?_append_right, Nat.add_assoc] using hslash
    exact List.mem_of_getElem? hk
  rw [doStepDown, hlast]
  exact List.take_left

theorem doStepDown_root {path : Bytes} (h : slash ∉ path.tail) : doStepDown path = [slash] := by
  have hnone : lastSlash path (path.length - 1) = none := by
    refine lastSlash_eq_none (fun j hj hslash => h ?_) _
    obtain ⟨k, rfl⟩ := Nat.exists_eq_add_of_lt hj
    have hk : path.tail[k]? = some slash := by simpa using hslash
    exact List.mem_of_getElem? hk
  rw [doStepDown, hnone]

theorem lastSlash_spec {path : Bytes} {n i : Nat} (h : lastSlash path n = some i) :
    0 < i ∧ i ≤ n ∧ path[i]? = some slash := by
  induction n with
  | zero => cases h
  | succ n ih =>
    unfold lastSlash at h
    split at h
    · have hi : n + 1 = i := by simpa using h
      subst hi
      exact ⟨by omega, le_refl _, by assumption⟩
    · have hrest := ih h
      exact ⟨hrest.1, by omega, hrest.2.2⟩

theorem doStepDown_take (path : Bytes) :
    doStepDown path = [slash] ∨
    ∃ i, 0 < i ∧ path[i]? = some slash ∧ doStepDown path = path.take i := by
  unfold doStepDown
  split
  · rename_i i hi
    have hspec := lastSlash_spec hi
    exact .inr ⟨i, hspec.1, hspec.2.2, rfl⟩
  · exact .inl rfl

theorem stepDown_cases (path : Bytes) :
    slash ∉ path.tail ∨ ∃ a b, path = a ++ slash :: b ∧ a ≠ [] ∧ slash ∉ b := by
  by_cases h : slash ∈ path.tail
  · obtain ⟨a, b, htail, hb⟩ := exists_last_sep h
    cases path with
    | nil => simp at h
    | cons c path =>
      have hpath : path = a ++ slash :: b := htail
      exact .inr ⟨c :: a, b, by rw [hpath]; rfl, by simp, hb⟩
  · exact .inl h

theorem comps_doStepDown {path : Bytes} (h : ∀ a, path = a ++ [slash] → a = []) :
    comps slash (doStepDown path) = (comps slash path).dropLast := by
  rcases stepDown_cases path with htail | ⟨a, b, rfl, ha, hb⟩
  · have hroot : comps slash [slash] = [] := by simp
    rw [doStepDown_root htail, hroot]
    cases path with
    | nil => simp
    | cons c path =>
      have hpath : slash ∉ path := htail
      by_cases hc : c = slash
      · subst hc
        rw [comps_cons_sep, comps_of_not_mem hpath]
        split <;> simp
      · have hmem : slash ∉ c :: path := by simp [hpath, Ne.symm hc]
        rw [comps_of_not_mem hmem]
        simp
  · have hne : b ≠ [] := by
      rintro rfl
      exact ha (h a rfl)
    rw [doStepDown_cut ha hb, comps_append_sep, comps_of_not_mem hb, if_neg hne,
      List.dropLast_concat]

theorem doStepDown_length_le (path : Bytes) : (doStepDown path).length ≤ max 1 path.length := by
  cases doStepDown_take path with
  | inl hroot =>
    rw [hroot, List.length_singleton]
    omega
  | inr hcut =>
    obtain ⟨i, -, -, htake⟩ := hcut
    rw [htake, List.length_take]
    omega

theorem doStepDown_absolute {path : Bytes} (h : path[0]? = some slash) :
    (doStepDown path)[0]? = some slash := by
  cases doStepDown_take path with
  | inl hroot => simp [hroot]
  | inr hcut =>
    obtain ⟨i, hi, -, htake⟩ := hcut
    rw [htake, List.getElem?_take_of_lt hi, h]

/-- A currentdir without doubled or trailing slashes: "/", "/a/b" or "a/b". -/
def WellFormed (dir : Bytes) : Prop :=
  dir = [slash] ∨
    ∃ cs, cs ≠ [] ∧ Proper slash cs ∧ (dir = join slash cs ∨ dir = slash :: join slash cs)

/-- "/" or components none of which starts with "..", after at most one leading slash. -/
def NormalizedPath (path : Bytes) : Prop :=
  path = [slash] ∨
    ∃ cs, cs ≠ [] ∧ Proper slash cs ∧ (∀ c ∈ cs, ¬([dot, dot] <+: c)) ∧
      (path = join slash cs ∨ path = slash :: join slash cs)

theorem NormalizedPath.wellFormed {path : Bytes} (h : NormalizedPath path) : WellFormed path := by
  rcases h with h | ⟨cs, hcs, hp, -, h⟩
  · exact .inl h
  · exact .inr ⟨cs, hcs, hp, h⟩

theorem join_ne_nil {cs : List Bytes} (hcs : cs ≠ []) (hp : Proper slash cs) :
    join slash cs ≠ [] := by
  intro h
  have hread := comps_join hp
  rw [h, comps_nil] at hread
  exact hcs hread.symm

theorem join_ends {cs : List Bytes} (hp : Proper slash cs) :
    (∀ r, join slash cs ≠ slash :: r) ∧ (∀ a, join slash cs ≠ a ++ [slash]) := by
  induction cs with
  | nil => simp
  | cons c cs ih =>
    have hc := hp c (by simp)
    obtain ⟨x, c', rfl⟩ := List.exists_cons_of_ne_nil hc.1
    have hrest := ih (fun d hd => hp d (by simp [hd]))
    by_cases hcs : cs = []
    · subst hcs
      rw [join_singleton]
      refine ⟨fun r h => hc.2 (by simp [h]), fun a h => hc.2 (by simp [h])⟩
    · have hsplit := @join_append _ slash [x :: c'] cs (by simp) hcs
      rw [List.singleton_append, join_singleton] at hsplit
      rw [hsplit]
      refine ⟨fun r h => ?_, fun a h => ?_⟩
      · have hx : x = slash := (List.cons.inj h).1
        exact hc.2 (by simp [hx])
      · obtain ⟨init, z, hz⟩ : ∃ init z, join slash cs = init ++ [z] :=
          ⟨_, _, (List.dropLast_append_getLast
            (join_ne_nil hcs (fun d hd => hp d (by simp [hd])))).symm⟩
        have hlast : (x :: c') ++ slash :: init ++ [z] = a ++ [slash] := by
          rw [← h, hz]
          simp
        have hz' : z = slash := by simpa using (List.append_inj' hlast rfl).2
        exact hrest.2 init (by rw [hz, hz'])

theorem WellFormed.no_trailing {dir : Bytes} (h : WellFormed dir) (a : Bytes)
    (ha : dir = a ++ [slash]) : a = [] := by
  rcases h with h | ⟨cs, hcs, hp, h | h⟩
  · rw [h] at ha
    simpa using ha.symm
  · exact absurd (h.symm.trans ha) ((join_ends hp).2 a)
  · cases a with
    | nil => rfl
    | cons x a =>
      have htail : join slash cs = a ++ [slash] := (List.cons.inj (h.symm.trans ha)).2
      exact absurd htail ((join_ends hp).2 a)

theorem comps_dropLast {dir : Bytes} (h : WellFormed dir) :
    comps slash (doStepDown dir) = (comps slash dir).dropLast :=
  comps_doStepDown h.no_trailing

theorem WellFormed.doStepDown {dir : Bytes} (h : WellFormed dir) :
    WellFormed (FtpServer.doStepDown dir) := by
  rcases h with rfl | ⟨cs, hcs, hp, h⟩
  · exact .inl (doStepDown_root (by simp))
  obtain ⟨init, c, rfl⟩ : ∃ init c, cs = init ++ [c] :=
    ⟨_, _, (List.dropLast_append_getLast hcs).symm⟩
  have hc := hp c (by simp)
  by_cases hinit : init = []
  · subst hinit
    rw [List.nil_append, join_singleton] at h
    refine .inl (doStepDown_root ?_)
    rcases h with rfl | rfl
    · exact fun hmem => hc.2 (List.mem_of_mem_tail hmem)
    · exact hc.2
  · rw [join_append slash hinit (by simp), join_singleton] at h
    have hne := join_ne_nil hinit hp.of_append.1
    refine .inr ⟨init, hinit, hp.of_append.1, ?_⟩
    rcases h with rfl | rfl
    · exact .inl (doStepDown_cut hne hc.2)
    · rw [← List.cons_append]
      exact .inr (doStepDown_cut (by simp) hc.2)

theorem WellFormed.trimmed {dir : Bytes} (h : WellFormed dir) :
    ¬(1 < dir.length ∧ dir.getLast? = some slash) := by
  rintro ⟨hlen, hlast⟩
  obtain ⟨a, rfl⟩ := List.getLast?_eq_some_iff.mp hlast
  rw [h.no_trailing a rfl] at hlen
  simp at hlen

theorem WellFormed.append {dir path : Bytes} (hd : WellFormed dir) (hroot : dir ≠ [slash])
    (hp : NormalizedPath path) (hrel : path[0]? ≠ some slash) :
    WellFormed (dir ++ slash :: path) := by
  obtain ⟨cs, hcs, hpc, hdir⟩ := hd.resolve_left hroot
  rcases hp with rfl | ⟨ds, hds, hpd, -, rfl | rfl⟩
  · simp at hrel
  · refine .inr ⟨cs ++ ds, by simp [hcs], hpc.append hpd, ?_⟩
    rw [join_append slash hcs hds]
    rcases hdir with rfl | rfl
    · exact .inl rfl
    · exact .inr rfl
  · simp at hrel

theorem NormalizedPath.not_dotdot {path : Bytes} (h : NormalizedPath path) :
    ¬(path[0]? = some dot ∧ path[1]? = some dot) := by
  rintro ⟨h₀, h₁⟩
  have hne : dot ≠ slash := by decide
  have hdots : [dot, dot] <+: path := by
    match path, h₀, h₁ with
    | a :: b :: rest, h₀, h₁ =>
      obtain ⟨rfl, rfl⟩ : a = dot ∧ b = dot := by simpa using And.intro h₀ h₁
      exact ⟨rest, rfl⟩
  obtain ⟨rest, hrest⟩ := hdots
  rcases h with rfl | ⟨cs, hcs, hp, hdot, h | h⟩
  · simp at hrest
  · obtain ⟨c, cs, rfl⟩ := List.exists_cons_of_ne_nil hcs
    have hc := hp c (by simp)
    refine hdot c (by simp) ?_
    by_cases hcs' : cs = []
    · subst hcs'
      rw [join_singleton] at h
      exact ⟨rest, by rw [hrest, h]⟩
    · have hsplit := @join_append _ slash [c] cs (by simp) hcs'
      rw [List.singleton_append, join_singleton] at hsplit
      rw [← hrest, hsplit] at h
      match c, hc.1, h with
      | [x], _, h => simp [hne] at h
      | x :: y :: c, _, h =>
        obtain ⟨rfl, rfl, -⟩ : dot = x ∧ dot = y ∧ _ := by simpa using h
        exact ⟨c, rfl⟩
  · rw [h] at hrest
    simp [hne] at hrest

section Branches
variable {dir path : Bytes}

theorem fullPath_absolute (h : path[0]? = some slash) : fullPath dir path = (dir, path) := by
  simp [fullPath, h]

theorem fullPath_root (h : dir = ftpSrvRoot) : fullPath dir path = (dir, path) := by
  have hdir : dir = bytes "/" := h
  simp [fullPath, hdir]

theorem fullPath_dots (hroot : dir ≠ ftpSrvRoot)
    (hdots : path[0]? = some dot ∧ path[1]? = some dot) :
    fullPath dir path = (doStepDown dir, doStepDown dir) := by
  have hdir : dir ≠ bytes "/" := hroot
  have habs : some dot ≠ some slash := by decide
  simp [fullPath, hdir, hdots, habs]

theorem fullPath_below (habs : path[0]? ≠ some slash) (hroot : dir ≠ ftpSrvRoot)
    (hdots : ¬(path[0]? = some dot ∧ path[1]? = some dot)) :
    fullPath dir path = (dir, dir ++ slash :: path) := by
  have hdir : dir ≠ bytes "/" := hroot
  simp only [fullPath, habs, hdir, hdots, if_false]

theorem fullPath_fst (dir path : Bytes) :
    (fullPath dir path).1 = dir ∨ (fullPath dir path).1 = doStepDown dir := by
  unfold fullPath
  split
  · exact .inl rfl
  · split
    · exact .inl rfl
    · split
      · exact .inr rfl
      · exact .inl rfl

end Branches

theorem fullPath_normalized {dir path : Bytes} (hd : WellFormed dir) (hp : NormalizedPath path) :
    (fullPath dir path).1 = dir ∧ WellFormed (fullPath dir path).2 ∧
    comps slash (fullPath dir path).2 =
      if path[0]? = some slash then comps slash path
      else comps slash dir ++ comps slash path := by
  by_cases habs : path[0]? = some slash
  · simp [fullPath_absolute habs, habs, hp.wellFormed]
  by_cases hroot : dir = ftpSrvRoot
  · rw [fullPath_root hroot, if_neg habs, hroot, ftpSrvRoot, bytes_root]
    exact ⟨rfl, hp.wellFormed, by simp⟩
  · rw [fullPath_below habs hroot hp.not_dotdot, if_neg habs]
    have hslash : dir ≠ [slash] := by rwa [← bytes_root]
    exact ⟨rfl, hd.append hslash hp habs, comps_append_sep slash dir path⟩

end FtpServer

import FtpServer.Lines

/-! Which command a line is taken for. The keywords are tried as prefixes of the line, so a
verb that goes on behind a keyword is taken for that keyword. -/

namespace FtpServer
open CString

section Tables
variable {α β : Type}

theorem find?_prefix_iff {table : List (List α × β)}
    (hfree : ∀ e ∈ table, ∀ e' ∈ table, e.1 <+: e'.1 → e = e') {p : List α × β → Bool}
    {s : List α} (hp : ∀ e, p e = true ↔ e.1 <+: s) (e : List α × β) :
    table.find? p = some e ↔ e ∈ table ∧ e.1 <+: s := by
  constructor
  · intro hfind
    exact ⟨List.mem_of_find?_eq_some hfind, (hp e).mp (List.find?_some hfind)⟩
  · rintro ⟨hmem, hprefix⟩
    cases hfind : table.find? p with
    | none => exact absurd ((hp e).mpr hprefix) (List.find?_eq_none.mp hfind e hmem)
    | some e' =>
      have hmem' := List.mem_of_find?_eq_some hfind
      have hprefix' := (hp e').mp (List.find?_some hfind)
      rcases List.prefix_or_prefix_of_prefix hprefix hprefix' with h | h
      · rw [hfree e hmem e' hmem' h]
      · rw [hfree e' hmem' e hmem h]

end Tables

theorem strBeginWith_iff (src mtch : Bytes) : strBeginWith src mtch = true ↔ mtch <+: src := by
  induction mtch generalizing src with
  | nil => cases src <;> simp [strBeginWith]
  | cons m mtch ih =>
    cases src with
    | nil => simp [strBeginWith]
    | cons b src => simp [strBeginWith, ih, List.cons_prefix_cons]

theorem keywords_prefixFree : ∀ e ∈ keywords, ∀ e' ∈ keywords, e.1 <+: e'.1 → e = e' := by
  decide

theorem keywords_no_space : ∀ e ∈ keywords, byte ' ' ∉ e.1 := by decide

theorem keywords_known : ∀ e ∈ keywords, e.2 ≠ .uknwn := by decide

def verbOf (line : Bytes) : Bytes := line.takeWhile (· ≠ byte ' ')

theorem prefix_verbOf_iff {keyword : Bytes} (hspace : byte ' ' ∉ keyword) (line : Bytes) :
    keyword <+: verbOf line ↔ keyword <+: line := by
  constructor
  · intro h
    exact h.trans (List.takeWhile_prefix _)
  · rintro ⟨rest, rfl⟩
    have hall : ∀ b ∈ keyword, decide (b ≠ byte ' ') = true := by
      intro b hb
      exact decide_eq_true (fun hsame => hspace (hsame ▸ hb))
    rw [verbOf, List.takeWhile_append_of_pos hall]
    exact List.prefix_append keyword _

theorem keywords_find_iff (line : Bytes) (e : Bytes × Cmd) :
    keywords.find? (fun entry => strBeginWith line entry.1) = some e ↔
      e ∈ keywords ∧ e.1 <+: verbOf line := by
  rw [find?_prefix_iff keywords_prefixFree (fun entry => strBeginWith_iff line entry.1)]
  constructor
  · rintro ⟨hmem, hprefix⟩
    exact ⟨hmem, (prefix_verbOf_iff (keywords_no_space e hmem) line).mpr hprefix⟩
  · rintro ⟨hmem, hprefix⟩
    exact ⟨hmem, (prefix_verbOf_iff (keywords_no_space e hmem) line).mp hprefix⟩

theorem doParseCommand_known (line : Bytes) {cmd : Cmd} (hcmd : cmd ≠ .uknwn) :
    doParseCommand line = cmd ↔ ∃ keyword, (keyword, cmd) ∈ keywords ∧ keyword <+: verbOf line := by
  unfold doParseCommand
  cases hfind : keywords.find? (fun entry => strBeginWith line entry.1) with
  | none =>
    have hnone : ∀ e, e ∈ keywords ∧ e.1 <+: verbOf line → False := by
      intro e he
      have hsome := (keywords_find_iff line e).mpr he
      simp [hfind] at hsome
    constructor
    · intro h
      exact absurd h.symm hcmd
    · rintro ⟨keyword, hmem, hprefix⟩
      exact (hnone (keyword, cmd) ⟨hmem, hprefix⟩).elim
  | some e =>
    obtain ⟨hmem, hprefix⟩ := (keywords_find_iff line e).mp hfind
    constructor
    · rintro rfl
      exact ⟨e.1, hmem, hprefix⟩
    · rintro ⟨keyword, hmem', hprefix'⟩
      have hsome := (keywords_find_iff line (keyword, cmd)).mpr ⟨hmem', hprefix'⟩
      rw [hfind] at hsome
      exact congrArg Prod.snd (Option.some.inj hsome)

theorem doParseCommand_unknown (line : Bytes) :
    doParseCommand line = .uknwn ↔ ∀ e ∈ keywords, ¬e.1 <+: verbOf line := by
  constructor
  · intro h e hmem hprefix
    have hcmd := (doParseCommand_known line (keywords_known e hmem)).mpr ⟨e.1, hmem, hprefix⟩
    exact keywords_known e hmem (hcmd.symm.trans h)
  · intro h
    by_contra hcmd
    obtain ⟨keyword, hmem, hprefix⟩ := (doParseCommand_known line hcmd).mp rfl
    exact h _ hmem hprefix

theorem verbOf_of_not_mem {line : Bytes} (h : byte ' ' ∉ line) : verbOf line = line := by
  apply List.takeWhile_eq_self_iff.mpr
  intro b hb
  exact decide_eq_true (fun hsame => h (hsame ▸ hb))

theorem verbOf_append {pre : Bytes} (h : byte ' ' ∉ pre) (text : Bytes) :
    verbOf (pre ++ byte ' ' :: text) = pre := by
  have hall : ∀ b ∈ pre, decide (b ≠ byte ' ') = true := by
    intro b hb
    exact decide_eq_true (fun hsame => h (hsame ▸ hb))
  rw [verbOf, List.takeWhile_append_of_pos hall]
  simp

theorem space_not_mem_verbOf (line : Bytes) : byte ' ' ∉ verbOf line := by
  intro hmem
  have hne := List.mem_takeWhile_imp hmem
  simp at hne

theorem strchr_append {c : Byte} {pre : Bytes} (h : c ∉ pre) (s : Bytes) :
    strchr c (pre ++ c :: s) = some (c :: s) := by
  induction pre with
  | nil => simp [strchr]
  | cons b pre ih =>
    have hb : b ≠ c := fun hsame => h (by simp [hsame])
    have hpre : c ∉ pre := fun hmem => h (by simp [hmem])
    simp [strchr, hb, ih hpre]

theorem argument_iff (line text : Bytes) :
    (strchr (byte ' ') line).map List.tail = some text ↔
      line = verbOf line ++ byte ' ' :: text := by
  constructor
  · intro h
    obtain ⟨rest, hrest, htail⟩ := Option.map_eq_some_iff.mp h
    obtain ⟨pre, rfl, hhead, hspace⟩ := strchr_eq_some hrest
    cases rest with
    | nil => cases hhead
    | cons b rest =>
      obtain rfl : b = byte ' ' := Option.some.inj hhead
      obtain rfl : rest = text := htail
      rw [verbOf_append hspace]
  · intro h
    rw [h, strchr_append (space_not_mem_verbOf line)]
    rfl

theorem argument_none_iff (line : Bytes) :
    (strchr (byte ' ') line).map List.tail = none ↔ line = verbOf line := by
  constructor
  · intro h
    by_cases hspace : byte ' ' ∈ line
    · obtain ⟨pre, text, rfl, hpre⟩ := List.eq_append_cons_of_mem hspace
      rw [strchr_append hpre] at h
      cases h
    · exact (verbOf_of_not_mem hspace).symm
  · intro h
    cases harg : (strchr (byte ' ') line).map List.tail with
    | none => rfl
    | some text =>
      have hline := (argument_iff line text).mp harg
      rw [← h] at hline
      exact absurd (congrArg List.length hline) (by simp)

/-- Of what stands in memory the line counts, up to its first NUL, CR or LF. A command is
returned when a keyword of it starts the verb, CMD_UKNWN when none does, and the argument is
exactly the text behind the first space. -/
theorem parseRequest_by_prefix (buf : Bytes) :
    (∀ cmd, cmd ≠ .uknwn → ((parseRequest buf).1 = cmd ↔
      ∃ keyword, (keyword, cmd) ∈ keywords ∧ keyword <+: verbOf (lineOf buf))) ∧
    ((parseRequest buf).1 = .uknwn ↔ ∀ e ∈ keywords, ¬e.1 <+: verbOf (lineOf buf)) ∧
    (∀ text, (parseRequest buf).2 = some text ↔
      lineOf buf = verbOf (lineOf buf) ++ byte ' ' :: text) ∧
    ((parseRequest buf).2 = none ↔ lineOf buf = verbOf (lineOf buf)) := by
  rw [parseRequest_eq, linePair]
  exact ⟨fun _ hcmd => doParseCommand_known (lineOf buf) hcmd, doParseCommand_unknown (lineOf buf),
    argument_iff (lineOf buf), argument_none_iff (lineOf buf)⟩

theorem longer_verb_is_accepted :
    ¬∀ buf : Bytes,
      (∀ cmd, cmd ≠ .uknwn → ((parseRequest buf).1 = cmd ↔
        ∃ keyword, (keyword, cmd) ∈ keywords ∧ verbOf (lineOf buf) = keyword)) ∧
      ((parseRequest buf).1 = .uknwn ↔ ∀ e ∈ keywords, verbOf (lineOf buf) ≠ e.1) ∧
      (∀ text, (parseRequest buf).2 = some text ↔
        lineOf buf = verbOf (lineOf buf) ++ byte ' ' :: text) ∧
      ((parseRequest buf).2 = none ↔ lineOf buf = verbOf (lineOf buf)) := by
  intro h
  have hunknown := (h (bytes "DELETE a\r\n")).2.1.mpr (by decide)
  exact absurd hunknown (by decide)

end FtpServer

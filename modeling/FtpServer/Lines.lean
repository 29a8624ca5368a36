import FtpServer.Sessions

/-! The text of a request is what stands before its first NUL, CR or LF. -/

namespace FtpServer
open Interaction CString Transition

def InLine (b : Byte) : Prop := b ≠ 0 ∧ b ≠ byte '\r' ∧ b ≠ byte '\n'

instance : DecidablePred InLine := fun _ => inferInstanceAs (Decidable (_ ∧ _))

def lineOf (mem : Bytes) : Bytes := mem.takeWhile (fun b => decide (InLine b))

/-- A text that ends no line and no string. -/
def Clean (s : Bytes) : Prop := ∀ b ∈ s, InLine b

instance (s : Bytes) : Decidable (Clean s) := List.decidableBAll InLine s

theorem clean_lineOf (mem : Bytes) : Clean (lineOf mem) := by
  intro b hb
  simpa using List.mem_takeWhile_imp hb

theorem lineOf_append {s : Bytes} (hs : Clean s) (mem : Bytes) :
    lineOf (s ++ mem) = s ++ lineOf mem := by
  apply List.takeWhile_append_of_pos
  intro b hb
  exact decide_eq_true (hs b hb)

theorem lineOf_ends {b : Byte} (hb : ¬InLine b) (mem : Bytes) : lineOf (b :: mem) = [] := by
  simp [lineOf, hb]

theorem cstr_stripLineEnds (mem : Bytes) : cstr (stripLineEnds mem) = lineOf mem := by
  induction mem with
  | nil => rfl
  | cons b mem ih =>
    by_cases hnul : b = 0
    · rw [lineOf_ends (by simp [InLine, hnul])]
      simp [stripLineEnds, hnul, cstr]
    · by_cases hend : b = byte '\r' ∨ b = byte '\n'
      · have hb : ¬InLine b := by
          intro h
          cases hend with
          | inl hcr => exact h.2.1 hcr
          | inr hlf => exact h.2.2 hlf
        rw [lineOf_ends hb]
        simp [stripLineEnds, hnul, hend, cstr]
      · have hb : InLine b := ⟨hnul, fun h => hend (.inl h), fun h => hend (.inr h)⟩
        have hrest : lineOf (b :: mem) = b :: lineOf mem :=
          lineOf_append (s := [b]) (by simpa [Clean] using hb) mem
        rw [hrest, ← ih]
        simp [stripLineEnds, hnul, hend, cstr]

def linePair (line : Bytes) : Cmd × Option Bytes :=
  (doParseCommand line, (strchr (byte ' ') line).map List.tail)

theorem parseRequest_eq (buf : Bytes) : parseRequest buf = linePair (lineOf buf) := by
  rw [parseRequest, parameterPtr, cstr_stripLineEnds, linePair]

theorem clean_argument {buf arg : Bytes} (h : (parseRequest buf).2 = some arg) : Clean arg := by
  rw [parseRequest_eq, linePair] at h
  obtain ⟨rest, hrest, htail⟩ := Option.map_eq_some_iff.mp h
  obtain ⟨pre, hline, -, -⟩ := strchr_eq_some hrest
  intro b hb
  rw [← htail] at hb
  apply clean_lineOf buf b
  rw [hline]
  exact List.mem_append_right pre (List.mem_of_mem_tail hb)

theorem lineOf_terminated {b : Byte} (hb : ¬InLine b) (s mem : Bytes) :
    lineOf (s ++ b :: mem) = lineOf s := by
  unfold lineOf
  rw [List.takeWhile_append]
  split
  · rename_i hlen
    have hall : s.takeWhile (fun b => decide (InLine b)) = s :=
      (List.takeWhile_prefix _).eq_of_length hlen
    simp [hall, hb]
  · rfl

theorem nul_not_inLine : ¬InLine 0 := by simp [InLine]

theorem request_pair (req : Request) :
    (req.cmd, req.parameter) = linePair (lineOf req.received) := by
  unfold Request.cmd Request.parameter Request.buf
  rw [parseRequest_eq, lineOf_terminated nul_not_inLine]

theorem Clean.take {s : Bytes} (h : Clean s) (i : Nat) : Clean (s.take i) :=
  fun b hb => h b (List.mem_of_mem_take hb)

theorem Clean.append {s r : Bytes} (hs : Clean s) (hr : Clean r) : Clean (s ++ r) := by
  intro b hb
  cases List.mem_append.mp hb with
  | inl hmem => exact hs b hmem
  | inr hmem => exact hr b hmem

theorem clean_root : Clean [slash] := by decide

theorem Clean.doStepDown {dir : Bytes} (h : Clean dir) : Clean (FtpServer.doStepDown dir) := by
  cases doStepDown_take dir with
  | inl hroot =>
    rw [hroot]
    exact clean_root
  | inr hcut =>
    obtain ⟨i, -, -, htake⟩ := hcut
    rw [htake]
    exact h.take i

theorem Clean.fullPath {dir path : Bytes} (hd : Clean dir) (hp : Clean path) :
    Clean (FtpServer.fullPath dir path).1 ∧ Clean (FtpServer.fullPath dir path).2 := by
  unfold FtpServer.fullPath
  split
  · exact ⟨hd, hp⟩
  · split
    · exact ⟨hd, hp⟩
    · split
      · exact ⟨hd.doStepDown, hd.doStepDown⟩
      · exact ⟨hd, hd.append (clean_root.append hp)⟩

def crlf : Bytes := bytes "\r\n"

def stream (lines : List Bytes) : Bytes := (lines.map (· ++ crlf)).flatten

/-- The requests are the chunks `recv` made of a stream of lines. -/
def Segments (reqs : List Request) (lines : List Bytes) : Prop :=
  (reqs.map Request.received).flatten = stream lines ∧ ∀ req ∈ reqs, req.received ≠ []

section Dispatched
variable {conn : Conn} {es : List (Request × Option (Cmd × Option Bytes))} {s : Option Conn}

/-- In a run whose requests get their buffer the switch is given one pair for every chunk, that
of the line it starts with; so it is given every line's when the chunks are the lines. -/
theorem dispatched_chunks (hrun : Follows servedStep (some conn) es s)
    (halloc : ∀ e ∈ es, e.1.Allocated) :
    dispatched es = es.map (fun e => linePair (lineOf e.1.received)) ∧
    ∀ lines : List Bytes, es.map (fun e => e.1.received) = lines.map (· ++ crlf) →
      dispatched es = lines.map (fun line => linePair (lineOf line)) := by
  have hpair : ∀ e ∈ es, e.2 = some (linePair (lineOf e.1.received)) := by
    have hstep := hrun.forall_mem (p := fun e => e.1.Allocated → e.2 = some (e.1.cmd,
      e.1.parameter)) (fun _ e _ hserved halloc => by
        obtain ⟨_, _, _, _, hdispatches, _⟩ := hserved
        exact hdispatches.pair halloc)
    intro e he
    rw [hstep e he (halloc e he), request_pair]
  have hchunks : dispatched es = es.map (fun e => linePair (lineOf e.1.received)) := by
    rw [dispatched, List.filterMap_congr hpair, List.filterMap_eq_map']
  refine ⟨hchunks, ?_⟩
  intro lines hlines
  have hline : ∀ line : Bytes, lineOf (line ++ crlf) = lineOf line :=
    fun line => lineOf_terminated (by decide) line _
  have hreceived : es.map (fun e => linePair (lineOf e.1.received)) =
      (es.map (fun e => e.1.received)).map (fun received => linePair (lineOf received)) := by
    simp
  rw [hchunks, hreceived, hlines]
  simp [hline]

end Dispatched

def pipelined : Request where
  received := bytes "PWD\r\nSYST\r\n"
  stale := []
  calls := [⟨.malloc, true⟩,
    ⟨.reply .sockfd 1 (Reply.currentDirectory ftpSrvRoot).text, 32⟩]
  fits := by decide

theorem pipelined_served : Dispatches justAccepted pipelined (some (.pwd, none)) justAccepted 0 :=
  ⟨0, runs_of_replay rfl⟩

theorem quitting_served : Dispatches justAccepted quitting (some (.quit, none)) justAccepted (-1) :=
  ⟨0, runs_of_replay rfl⟩

theorem dispatched_chunks_leaving :
    dispatched [(pipelined, some (.pwd, none)), (quitting, some (.quit, none))] =
      [linePair (lineOf pipelined.received), linePair (lineOf quitting.received)] := by
  have hrun : Follows servedStep (some justAccepted)
      [(pipelined, some (.pwd, none)), (quitting, some (.quit, none))] none :=
    ⟨_, ⟨justAccepted, _, 0, rfl, pipelined_served, rfl⟩,
      _, ⟨justAccepted, _, -1, rfl, quitting_served, rfl⟩, rfl⟩
  have halloc : ∀ e ∈ [(pipelined, some (Cmd.pwd, (none : Option Bytes))),
      (quitting, some (.quit, none))], e.1.Allocated := by
    simp [Request.Allocated, pipelined, quitting]
  exact (dispatched_chunks hrun halloc).1

theorem segmentation_matters :
    ¬∀ (lines : List Bytes) (conn : Conn) (es : List (Request × Option (Cmd × Option Bytes)))
      (s : Option Conn), (∀ line ∈ lines, Clean line ∧ line.length < ftpBufferSize) →
      Accepted conn → Follows servedStep (some conn) es s → (∀ e ∈ es, e.1.Allocated) →
      Segments (es.map Prod.fst) lines → dispatched es = lines.map linePair := by
  intro h
  have hpairs := h [bytes "PWD", bytes "SYST"] justAccepted [(pipelined, some (.pwd, none))] _
    (by decide) accepted_justAccepted
    ⟨_, ⟨justAccepted, _, 0, rfl, pipelined_served, rfl⟩, rfl⟩
    (by simp [Request.Allocated, pipelined]) ⟨by decide, by decide⟩
  have hlen : 1 = 2 := congrArg List.length hpairs
  cases hlen

end FtpServer

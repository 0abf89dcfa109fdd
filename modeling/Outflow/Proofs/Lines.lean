import Outflow.Proofs.Session.History

/-!
# Lines do not depend on the schedule

A pipe of capacity `c` hands its bytes out in lines.  Which lines these are depends on the bytes alone, and
not on how they were written or when they were read: the bytes are split after every newline, and each
line is cut into pieces of `c` bytes.

* `lines`, `pieces`, `cut`: the lines of some bytes, and their pieces;
* `Service.line?`, `handedOut`: the lines that reading hands out;
* `Serves.cut`: what was handed out, and the pieces of what is buffered, are the pieces of all bytes;
* `lines_of_run`: what the lines handed out on a run are.
-/

namespace Outflow

/-- Splits after every newline; the last line may have none. -/
def lines : Bytes → List Bytes
  | [] => []
  | b :: rest =>
    if b = newline then [b] :: lines rest
    else match lines rest with
      | [] => [[b]]
      | l :: ls => (b :: l) :: ls

/-- Pieces of `c` bytes from the start, the last of which is what is left. -/
def pieces (c : Nat) (bs : Bytes) : List Bytes :=
  (List.range ((bs.length + c - 1) / c)).map fun i => (bs.drop (i * c)).take c

/-- The pieces of each line. -/
def cut (c : Nat) (bs : Bytes) : List Bytes := (lines bs).flatMap (pieces c)

example : cut 3 [97, 98, 10, 99, 100, 101, 102, 10, 10, 103] =
    [[97, 98, 10], [99, 100, 101], [102, 10], [10], [103]] := by decide

variable {c : Nat} {x y : Bytes}

/-! ### Lines and pieces -/

theorem lines_append_newline (h : newline ∉ x) :
    lines (x ++ newline :: y) = (x ++ [newline]) :: lines y := by
  induction x with
  | nil => simp [lines]
  | cons b x ih =>
    rw [List.mem_cons, not_or] at h
    rw [List.cons_append, lines, if_neg (Ne.symm h.1), ih h.2]
    rfl

/-- Bytes without a newline belong to the first line of what follows. -/
theorem lines_append (h : newline ∉ x) (hx : x ≠ []) :
    lines (x ++ y) = match lines y with
      | [] => [x]
      | l :: ls => (x ++ l) :: ls := by
  induction x with
  | nil => exact absurd rfl hx
  | cons b x ih =>
    rw [List.mem_cons, not_or] at h
    rw [List.cons_append, lines, if_neg (Ne.symm h.1)]
    by_cases hnil : x = []
    · subst hnil
      rw [List.nil_append]
      cases lines y <;> rfl
    · rw [ih h.2 hnil]
      cases lines y <;> rfl

theorem pieces_of_le (hx : x ≠ []) (h : x.length ≤ c) : pieces c x = [x] := by
  have hpos := List.length_pos_iff.2 hx
  have hone : (x.length + c - 1) / c = 1 := by
    rw [Nat.div_eq_iff (by omega)]
    omega
  simp [pieces, hone, List.take_of_length_le h]

theorem pieces_append (hc : 0 < c) (h : x.length = c) : pieces c (x ++ y) = x :: pieces c y := by
  have hlen : ((x ++ y).length + c - 1) / c = (y.length + c - 1) / c + 1 := by
    rw [List.length_append, h, show c + y.length + c - 1 = (y.length + c - 1) + c by omega,
      Nat.add_div_right _ hc]
  rw [pieces, hlen, List.range_succ_eq_map, List.map_cons, List.map_map, pieces]
  congr 1
  · rw [Nat.zero_mul, List.drop_zero, ← h, List.take_left]
  · refine List.map_congr_left fun i _ => ?_
    have hd : (i + 1) * c = x.length + i * c := by
      rw [h]
      ring
    simp only [Function.comp_apply, Nat.succ_eq_add_one]
    rw [hd, List.drop_length_add_append]

/-! ### Cutting from the front -/

/-- A line that is no longer than a piece. -/
theorem cut_line (h : newline ∉ x) (hlen : x.length < c) :
    cut c (x ++ newline :: y) = (x ++ [newline]) :: cut c y := by
  have hp : pieces c (x ++ [newline]) = [x ++ [newline]] :=
    pieces_of_le (by simp) (by rw [List.length_append, List.length_singleton]; omega)
  rw [cut, lines_append_newline h, List.flatMap_cons, hp, List.singleton_append, cut]

/-- A full piece of a line, whatever follows. -/
theorem cut_full (hc : 0 < c) (h : newline ∉ x) (hlen : x.length = c) :
    cut c (x ++ y) = x :: cut c y := by
  have hx : x ≠ [] := by
    rintro rfl
    rw [List.length_nil] at hlen
    omega
  rw [cut, lines_append h hx, cut]
  cases lines y with
  | nil =>
    rw [List.flatMap_singleton, List.flatMap_nil, pieces_of_le hx (by omega)]
  | cons l ls =>
    rw [List.flatMap_cons, pieces_append hc hlen, List.flatMap_cons, List.cons_append]

/-- What is left at the end. -/
theorem cut_last (h : newline ∉ x) (hx : x ≠ []) (hlen : x.length ≤ c) : cut c x = [x] := by
  have hl := lines_append (y := []) h hx
  rw [List.append_nil] at hl
  rw [cut, hl]
  exact (List.flatMap_singleton ..).trans (pieces_of_le hx hlen)

/-! ### What reading a line takes -/

/-- Reading a line takes the bytes through the first newline, or all that are buffered. -/
theorem take_throughNewline (bs : Bytes) :
    (∃ l rest, newline ∉ l ∧ bs = l ++ newline :: rest ∧
        bs.take (throughNewline bs) = l ++ [newline] ∧ bs.drop (throughNewline bs) = rest) ∨
      (newline ∉ bs ∧ bs.take (throughNewline bs) = bs ∧ bs.drop (throughNewline bs) = []) := by
  by_cases h : newline ∈ bs
  · left
    induction bs with
    | nil => cases h
    | cons b bs ih =>
      by_cases hb : b = newline
      · subst hb
        exact ⟨[], bs, by simp, rfl, by simp [throughNewline], by simp [throughNewline]⟩
      · obtain ⟨l, rest, hl, hbs, htake, hdrop⟩ := ih ((List.mem_cons.1 h).resolve_left (Ne.symm hb))
        refine ⟨b :: l, rest, ?_, by rw [hbs]; rfl, ?_, ?_⟩
        · rw [List.mem_cons, not_or]
          exact ⟨Ne.symm hb, hl⟩
        · rw [throughNewline, if_neg hb, List.take_succ_cons, htake]
          rfl
        · rw [throughNewline, if_neg hb, List.drop_succ_cons, hdrop]
  · right
    rw [throughNewline_eq_length h]
    exact ⟨h, List.take_length, List.drop_length⟩

/-- The line that reading hands out, if it does and the line is not empty. -/
def Service.line? (v : Service) : Option Bytes :=
  match v.request, v.answer? with
  | .readLine, some (.ok (.bytes (b :: rest))) => some (b :: rest)
  | _, _ => none

/-- The lines that are handed out, in order. -/
def handedOut (vs : List Service) : List Bytes := vs.filterMap Service.line?

theorem handedOut_append (vs ws : List Service) :
    handedOut (vs ++ ws) = handedOut vs ++ handedOut ws := List.filterMap_append

/-- Whether nothing but reading lines takes bytes from the buffer. -/
def ByLines (vs : List Service) : Prop := ∀ v ∈ vs, v.removed ≠ [] → v.request = .readLine

/-- Whether some reading of a line came to the end. -/
def ReachedEnd (vs : List Service) : Prop :=
  ∃ v ∈ vs, v.request = .readLine ∧ v.answer? = some (.ok (.bytes []))

instance (vs : List Service) : Decidable (ByLines vs) :=
  inferInstanceAs (Decidable (∀ v ∈ vs, v.removed ≠ [] → v.request = .readLine))

instance (vs : List Service) : Decidable (ReachedEnd vs) :=
  inferInstanceAs (Decidable (∃ v ∈ vs, v.request = .readLine ∧ v.answer? = some (.ok (.bytes []))))

/-- What is handed out is what was removed. -/
theorem Service.line?_eq {v : Service} (h : v.removed ≠ [] → v.request = .readLine) :
    v.line? = if v.removed = [] then none else some v.removed := by
  by_cases hr : v.request = .readLine
  · rcases Service.answer?_of_chunk (.inr hr) with ⟨hans, hrem⟩ | hans
    · rw [line?, hr, hans, hrem]
      rfl
    · rw [line?, hr, hans]
      cases v.removed <;> rfl
  · have hrem : v.removed = [] := by
      by_contra hne
      exact hr (h hne)
    rw [hrem, if_pos rfl]
    unfold line?
    split
    · rename_i hr' _
      exact absurd hr' hr
    · rfl

/-- A line is read from an open pipe: nothing is removed, or the line that begins the buffer, or a full
piece of it, or what is left once the write end was shut down. -/
theorem Service.removed_line {v : Service} (hopen : v.before.readClosed = false)
    (hlen : v.before.buffer.length ≤ v.before.capacity) (hr : v.request = .readLine)
    (hne : v.removed ≠ []) :
    v.before.buffer = v.removed ++ v.after.buffer ∧
      ((∃ l, v.removed = l ++ [newline] ∧ newline ∉ l ∧ l.length < v.before.capacity) ∨
        (newline ∉ v.removed ∧ v.after.buffer = [] ∧
          (v.removed.length = v.before.capacity ∨ v.before.writeClosed = true))) := by
  rcases Pipe.serve_cases v.before v.request with ⟨-, hs⟩ | ⟨hadm, -⟩
  · exact absurd (by simp [removed, Pipe.removed, hs]) hne
  · rw [hr] at hadm
    obtain ⟨hrem, hbuf, -⟩ := Pipe.removed_of_perform hopen rfl hadm rfl
    have hrem' : v.removed = v.before.buffer.take (throughNewline v.before.buffer) := by
      rw [removed, hr, hrem]
    have hbuf' : v.after.buffer = v.before.buffer.drop (throughNewline v.before.buffer) := by
      rw [after, hr, hbuf]
    refine ⟨by rw [hrem', hbuf', List.take_append_drop], ?_⟩
    rw [hrem', hbuf']
    rcases take_throughNewline v.before.buffer with ⟨l, rest, hl, hb, htake, hdrop⟩ |
      ⟨hnl, htake, hdrop⟩
    · refine .inl ⟨l, htake, hl, ?_⟩
      rw [hb, List.length_append, List.length_cons] at hlen
      omega
    · rw [htake, hdrop]
      refine .inr ⟨hnl, rfl, ?_⟩
      simp only [Pipe.admits, hopen, Bool.or_false, Bool.or_eq_true, List.contains_iff_mem,
        decide_eq_true_eq] at hadm
      rcases hadm with (hnl' | hfull) | hclosed
      · exact absurd hnl' hnl
      · exact .inl (by omega)
      · exact .inr hclosed

/-- Reading a line from an open pipe comes to the end only when nothing is buffered and the write end was
shut down. -/
theorem Service.atEof_of_line {v : Service} (hopen : v.before.readClosed = false)
    (hv : v.before.Valid) (hr : v.request = .readLine) (hans : v.answer? = some (.ok (.bytes []))) :
    v.before.buffer = [] ∧ v.before.writeClosed = true := by
  rcases Pipe.serve_cases v.before v.request with ⟨-, hs⟩ | ⟨hadm, -⟩
  · simp [answer?, hs] at hans
  · rw [hr] at hadm
    obtain ⟨-, -, hrep⟩ := Pipe.removed_of_perform hopen rfl hadm rfl
    rw [answer?, hr, hrep] at hans
    have hnil : v.before.buffer.take (throughNewline v.before.buffer) = [] := by simpa using hans
    rcases take_throughNewline v.before.buffer with ⟨l, rest, -, -, htake, -⟩ | ⟨hnl, htake, -⟩
    · rw [htake] at hnil
      simp at hnil
    · rw [htake] at hnil
      refine ⟨hnil, ?_⟩
      have hpos := hv.capacity_pos
      simp only [Pipe.admits, hopen, hnil, Bool.or_false, Bool.or_eq_true, List.contains_nil,
        decide_eq_true_eq, List.length_nil, Bool.false_eq_true, false_or] at hadm
      rcases hadm with hfull | hclosed
      · omega
      · exact hclosed

/-! ### Histories -/

namespace Serves

variable {b₀ b : Pipe} {vs : List Service}

/-- A service of a history with an open read end found it open, and did not close it. -/
theorem open_of_snoc {v : Service} (hopen : v.after.readClosed = false) :
    v.before.readClosed = false ∧ v.request ≠ .close := by
  rw [Service.after, Pipe.readClosed_serve, Bool.or_eq_false_iff] at hopen
  exact ⟨hopen.1, by simpa using hopen.2⟩

/-- What was handed out, and the pieces of what is buffered and may follow, are the pieces of all bytes.
Nothing may follow once the write end was shut down. -/
theorem cut (h : Serves b₀ vs b) (hv : b₀.Valid) (hopen : b.readClosed = false) (hl : ByLines vs)
    (hy : b.writeClosed = true → y = []) :
    Outflow.cut b₀.capacity (removed vs ++ (b.buffer ++ y)) =
      handedOut vs ++ Outflow.cut b₀.capacity (b.buffer ++ y) := by
  induction h generalizing y with
  | nil => rfl
  | @snoc vs v h ih =>
    obtain ⟨hopen', hclose⟩ := open_of_snoc hopen
    have hl' : ByLines vs := fun w hw => hl w (List.mem_append_left _ hw)
    have hlv : v.removed ≠ [] → v.request = .readLine :=
      hl v (List.mem_append_right _ (List.mem_singleton.2 rfl))
    have hstep : v.before.buffer ++ v.accepted = v.removed ++ v.after.buffer :=
      Pipe.buffer_append_accepted hopen' hclose
    have hline : handedOut [v] = (v.line?).toList := by
      rw [handedOut, List.filterMap_cons, List.filterMap_nil]
      cases v.line? <;> rfl
    rw [removed_append, removed_singleton, handedOut_append, hline, Service.line?_eq hlv]
    by_cases hrem : v.removed = []
    · -- nothing was handed out, and what was accepted was still to follow
      rw [hrem, if_pos rfl, List.append_nil]
      rw [hrem, List.nil_append] at hstep
      have hfollow := ih hopen' hl' (y := v.accepted ++ y) fun hc => by
        have hafter : v.after.writeClosed = true := by
          rw [Service.after, Pipe.writeClosed_serve, hc, Bool.true_or]
        rw [hy hafter, List.append_nil]
        exact Pipe.accepted_of_isClosing (by simp [Pipe.isClosing, hc]) _
      rw [← List.append_assoc v.before.buffer, hstep] at hfollow
      rw [hfollow]
      simp
    · -- a piece was taken from the front of the buffer
      have hr := hlv hrem
      have hacc : v.accepted = [] := by simp [Service.accepted, Pipe.accepted, hr]
      have hwc : v.after.writeClosed = v.before.writeClosed := by
        rw [Service.after, Pipe.writeClosed_serve, hr]
        simp
      have hvalid := h.valid hv
      have hcap := h.capacity
      have hfollow := ih hopen' hl' (y := y) fun hc => hy (by rw [hwc, hc])
      rw [hacc, List.append_nil] at hstep
      obtain ⟨-, hcase⟩ := Service.removed_line hopen' hvalid.length_le hr hrem
      rw [hcap] at hcase
      have hfront : Outflow.cut b₀.capacity (v.removed ++ (v.after.buffer ++ y)) =
          v.removed :: Outflow.cut b₀.capacity (v.after.buffer ++ y) := by
        rcases hcase with ⟨l, hvl, hl, hlen⟩ | ⟨hnl, hempty, hfull | hclosed⟩
        · rw [hvl, List.append_assoc, List.singleton_append]
          exact cut_line hl hlen
        · exact cut_full hv.capacity_pos hnl hfull
        · have hlen : v.removed.length ≤ b₀.capacity := by
            have hle := hvalid.length_le
            rw [hstep, hempty, List.append_nil, hcap] at hle
            exact hle
          rw [hempty, hy (by rw [hwc, hclosed]), List.append_nil, List.append_nil,
            cut_last hnl hrem hlen]
          rfl
      rw [if_neg hrem, Option.toList_some, List.append_assoc (handedOut vs), List.singleton_append,
        ← hfront, ← List.append_assoc v.removed, ← hstep, List.append_assoc (removed vs),
        ← List.append_assoc v.removed, ← hstep]
      exact hfollow

/-- Whoever was served found the read end open. -/
theorem open_before {us ws : List Service} {v : Service} (h : Serves b₀ (us ++ v :: ws) b)
    (hopen : b.readClosed = false) : v.before.readClosed = false := by
  have hafter : v.after.readClosed = false := by
    by_contra hc
    rw [h.of_append_cons.2.readClosed (by simpa using hc)] at hopen
    cases hopen
  exact (open_of_snoc hafter).1

/-- A line that was handed out holds a newline only as its last byte; without one it is a full piece, or
it was handed out after the write end was shut down, and nothing was handed out after it. -/
theorem line (hv : b₀.Valid) (hopen : b.readClosed = false) {us ws : List Service} {v : Service}
    (h : Serves b₀ (us ++ v :: ws) b) (hl : ByLines (us ++ v :: ws)) {x : Bytes}
    (hx : v.line? = some x) :
    newline ∉ x.dropLast ∧ (x.getLast? = some newline ∨ x.length = b₀.capacity ∨
      (v.before.writeClosed = true ∧ handedOut ws = [])) := by
  have hmem : v ∈ us ++ v :: ws := List.mem_append_right _ List.mem_cons_self
  obtain ⟨hus, hws⟩ := h.of_append_cons
  have hopen' := h.open_before hopen
  have hvalid := hus.valid hv
  have hcap := hus.capacity
  rw [Service.line?_eq (hl v hmem)] at hx
  have hrem : v.removed ≠ [] := by
    intro hnil
    rw [if_pos hnil] at hx
    cases hx
  rw [if_neg hrem, Option.some.injEq] at hx
  subst hx
  have hr := hl v hmem hrem
  obtain ⟨-, hcase⟩ := Service.removed_line hopen' hvalid.length_le hr hrem
  rcases hcase with ⟨l, hvl, hnl, -⟩ | ⟨hnl, hempty, hfull | hclosed⟩
  · rw [hvl, List.dropLast_concat, List.getLast?_concat]
    exact ⟨hnl, .inl rfl⟩
  · exact ⟨fun hm => hnl (List.mem_of_mem_dropLast hm), .inr (.inl (by rw [hfull, hcap]))⟩
  · refine ⟨fun hm => hnl (List.mem_of_mem_dropLast hm), .inr (.inr ⟨hclosed, ?_⟩)⟩
    -- the buffer was left empty, so nothing is removed after it
    have hwc : v.after.writeClosed = true := by
      rw [Service.after, Pipe.writeClosed_serve, hclosed, Bool.true_or]
    obtain ⟨-, hnone, -⟩ := hws.idle_of_atEof hwc hempty
    rw [handedOut, List.filterMap_eq_nil_iff]
    intro w hw
    rw [Service.line?_eq (hl w (List.mem_append_right _ (List.mem_cons_of_mem _ hw))),
      if_pos (List.flatMap_eq_nil_iff.1 hnone w hw)]

/-- Once the end was reached, what was handed out are the pieces of all bytes that were accepted. -/
theorem handedOut_eq_cut (h : Serves b₀ vs b) (hv : b₀.Valid) (hbuf : b₀.buffer = [])
    (hopen : b.readClosed = false) (hl : ByLines vs) (hend : ReachedEnd vs) :
    b.writeClosed = true ∧ handedOut vs = Outflow.cut b₀.capacity (accepted vs) := by
  obtain ⟨v, hmem, hr, hans⟩ := hend
  obtain ⟨us, ws, rfl⟩ := List.append_of_mem hmem
  obtain ⟨hus, hws⟩ := h.of_append_cons
  have hopen' := h.open_before hopen
  obtain ⟨hempty, hclosed⟩ := Service.atEof_of_line hopen' (hus.valid hv) hr hans
  have hclose : v.request ≠ .close := by
    rw [hr]
    simp
  have hwc : v.after.writeClosed = true := by
    rw [Service.after, Pipe.writeClosed_serve, hclosed, Bool.true_or]
  have hafter : v.after.buffer = [] := by
    have hstep := Pipe.buffer_append_accepted hopen' hclose
    rw [hempty, Pipe.accepted_of_isClosing (by simp [Pipe.isClosing, hclosed])] at hstep
    exact (List.append_eq_nil_iff.1 hstep.symm).2
  obtain ⟨-, -, hb⟩ := hws.idle_of_atEof hwc hafter
  have hall := h.conserved hopen
  have hcut := h.cut hv hopen hl (y := []) fun _ => rfl
  rw [hbuf, List.nil_append, hb, List.append_nil] at hall
  rw [hb, List.append_nil, List.append_nil] at hcut
  refine ⟨hws.writeClosed hwc, ?_⟩
  rw [hall, hcut]
  exact (List.append_nil _).symm

end Serves

namespace Session

variable {s : Session} {past : List Session} {p : Nat} {b : Pipe}

/-- On every run on which bytes leave an open pipe only as lines, whoever writes and reads, and whoever is
cancelled: each line that was handed out holds a newline only as its last byte, and without one it is as
long as the capacity, or it was handed out after the write end was shut down and is the last.  Once the
end was reached the lines are the pieces of all bytes that were accepted; so on two such runs the same
bytes and the same capacity give the same lines. -/
theorem lines_of_run {out err : Stream.Traits} (h : Run (start out err) past s)
    (hb : s.pipe? p = some b) (hopen : b.readClosed = false) (hl : ByLines (history p past)) :
    (∀ us v ws x, history p past = us ++ v :: ws → v.line? = some x →
        newline ∉ x.dropLast ∧ (x.getLast? = some newline ∨ x.length = b.capacity ∨
          (v.before.writeClosed = true ∧ handedOut ws = []))) ∧
      (ReachedEnd (history p past) → b.writeClosed = true ∧
        handedOut (history p past) = cut b.capacity (accepted (history p past))) ∧
      (∀ out' err' past' s' p' b', Run (start out' err') past' s' → s'.pipe? p' = some b' →
        b'.readClosed = false → ByLines (history p' past') → ReachedEnd (history p past) →
        ReachedEnd (history p' past') → b'.capacity = b.capacity →
        accepted (history p' past') = accepted (history p past) →
          handedOut (history p' past') = handedOut (history p past)) := by
  have hall : ∀ {out err past s p b}, Run (start out err) past s → s.pipe? p = some b →
      b.readClosed = false → ByLines (history p past) → ReachedEnd (history p past) →
        b.writeClosed = true ∧
          handedOut (history p past) = cut b.capacity (accepted (history p past)) := by
    intro out err past s p b h hb hopen hl hend
    obtain ⟨b₀, hv, hbuf, -, hserves⟩ := h.history hb
    rw [hserves.capacity]
    exact hserves.handedOut_eq_cut hv hbuf hopen hl hend
  refine ⟨fun us v ws x hus hx => ?_, hall h hb hopen hl, ?_⟩
  · obtain ⟨b₀, hv, -, -, hserves⟩ := h.history hb
    rw [hus] at hserves hl
    rw [hserves.capacity]
    exact hserves.line hv hopen hl hx
  · intro out' err' past' s' p' b' h' hb' hopen' hl' hend hend' hcap hacc
    rw [(hall h hb hopen hl hend).2, (hall h' hb' hopen' hl' hend').2, hcap, hacc]

/-- A pipe for three bytes, a task that is to read all its lines, and two tasks that are to write seven
bytes. -/
def twoWriters : Session :=
  let s := ((start .plain .plain).addPipe (.empty 3)).1
  let s := (s.spawn (.lines 0 [])).1
  let s := (s.spawn (.backing (.pipe 0) (.write [97, 98, 10]))).1
  (s.spawn (.backing (.pipe 0) (.write [99, 100, 101, 102]))).1

/-- When they have settled, a byte is to be written and the write end to be shut down. -/
def oneWriter : Session :=
  let s := (turn^[8] twoWriters).spawn (.backing (.pipe 0) (.write [102]))
  (s.1.spawn (.backing (.pipe 0) .shutdown)).1

theorem run_oneWriter : Run (start .plain .plain)
    (List.iterate turn twoWriters 8 ++ List.iterate turn oneWriter 4) (turn^[4] oneWriter) := by
  have h₀ : Run (start .plain .plain) [] (start .plain .plain) := .refl
  have h₁ := h₀.move (@Move.addPipe _ 3 _ rfl)
  have h₂ := h₁.move (@Move.spawn _ (.lines 0 []) ⟨_, rfl⟩)
  have h₃ := h₂.move (@Move.spawn _ (.backing (.pipe 0) (.write [97, 98, 10])) ⟨_, rfl⟩)
  have h₄ := h₃.move (@Move.spawn _ (.backing (.pipe 0) (.write [99, 100, 101, 102])) ⟨_, rfl⟩)
  have h₅ := (h₄.iterate 8).move (@Move.spawn _ (.backing (.pipe 0) (.write [102])) ⟨_, rfl⟩)
  have h₆ := h₅.move (@Move.spawn _ (.backing (.pipe 0) .shutdown) ⟨_, rfl⟩)
  exact h₆.iterate 4

/-- The lines are the first with its newline, a full piece of the second, and what was left of it. -/
theorem lines_of_oneWriter : ∃ past s, Run (start .plain .plain) past s ∧
    accepted (history 0 past) = [97, 98, 10, 99, 100, 101, 102] ∧
      handedOut (history 0 past) = [[97, 98, 10], [99, 100, 101], [102]] := by
  refine ⟨_, _, run_oneWriter, rfl, ?_⟩
  have hl : ByLines (history 0 (List.iterate turn twoWriters 8 ++ List.iterate turn oneWriter 4)) := by
    decide +kernel
  have hend : ReachedEnd
      (history 0 (List.iterate turn twoWriters 8 ++ List.iterate turn oneWriter 4)) := by
    decide +kernel
  have hb : (turn^[4] oneWriter).pipe? 0 = some ⟨[], 3, true, false⟩ := rfl
  rw [((lines_of_run run_oneWriter hb rfl hl).2.1 hend).2]
  rfl

end Session

end Outflow

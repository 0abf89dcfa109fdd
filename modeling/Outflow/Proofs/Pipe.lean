import Outflow.Pipe
import Mathlib.Tactic

/-!
# Laws of a pipe

What one request does to a pipe, in the terms in which runs are described:

* `Pipe.accepted`, `Pipe.removed`: the bytes that a request adds to the buffer, and those that it
  takes from it;
* `Pipe.Valid`: the capacity is positive and never exceeded, and a closed read end leaves nothing;
* `buffer_append_accepted`: as long as the read end is open, what was buffered and what is accepted
  is what is removed and what stays buffered;
* `serve_of_not_wakes`: whoever is not woken has nothing new to see;
* `wait_cases`: a request that is put off is one that the pipe, as it is left, refuses.
-/

namespace Outflow.Pipe

/-- The bytes that a request adds to the buffer: of a write, as many as its answer counts. -/
def accepted (p : Pipe) (r : Request) : Bytes :=
  match r, (p.serve r).reply with
  | .write data, .done (.ok (.count n)) => data.take n
  | _, _ => []

/-- Whether a request reads. -/
def Request.isRead : Request → Bool
  | .read _ | .drain _ | .readLine => true
  | _ => false

/-- The bytes that a reading request takes from the front of the buffer. -/
def removed (p : Pipe) (r : Request) : Bytes :=
  if r.isRead then p.buffer.take (p.buffer.length - (p.serve r).pipe.buffer.length) else []

/-- What holds of a pipe at all times. -/
structure Valid (p : Pipe) : Prop where
  capacity_pos : 0 < p.capacity
  length_le : p.buffer.length ≤ p.capacity
  buffer_eq_nil : p.readClosed = true → p.buffer = []

theorem valid_of_create? {capacity : Int} {p : Pipe} (h : create? capacity = some p) :
    p.Valid := by
  unfold create? at h
  split at h
  · cases h
  · cases h
    exact ⟨by simp only [empty]; omega, by simp [empty], by simp [empty]⟩

/-! ### Taking from the front -/

theorem take_of_readClosed {p : Pipe} (h : p.readClosed = true) (n : Nat) :
    p.take n = ([], p, false) := by simp [take, h]

theorem take_of_pos {p : Pipe} (h : p.readClosed = false) {n : Nat} (hn : 0 < n) :
    p.take n = (p.buffer.take n, { p with buffer := p.buffer.drop n }, true) := by
  simp [take, h, Nat.pos_iff_ne_zero.1 hn]

theorem take_zero (p : Pipe) : p.take 0 = ([], p, false) := by simp [take]

/-- Taking from an open pipe leaves the rest of the buffer, and nothing else changes. -/
theorem take_eq {p : Pipe} (h : p.readClosed = false) (n : Nat) :
    p.take n = (p.buffer.take n, { p with buffer := p.buffer.drop n }, n != 0) := by
  rcases Nat.eq_zero_or_pos n with rfl | hn
  · rw [take_zero]; simp
  · rw [take_of_pos h hn]; simp [Nat.pos_iff_ne_zero.1 hn]

/-! ### What is performed -/

theorem not_admits_iff {p : Pipe} {r : Request} : p.admits r = false ↔
    p.writeClosed = false ∧ p.readClosed = false ∧
      ((∃ data, r = .write data ∧ data ≠ [] ∧ p.capacity ≤ p.buffer.length) ∨
        (((∃ n, r = .read n) ∨ ∃ got, r = .drain got) ∧ p.buffer = []) ∨
        (r = .readLine ∧ newline ∉ p.buffer ∧ p.buffer.length < p.capacity)) := by
  cases r <;> simp [admits, readable] <;> grind

theorem perform_drain_of_open {p : Pipe} (h : p.readClosed = false) (got : Bytes) :
    p.perform (.drain got) =
      ⟨{ p with buffer := [] }, p.buffer.length != 0,
        if p.writeClosed then .done (.ok (.bytes (got ++ p.buffer)))
        else .wait (.drain (got ++ p.buffer))⟩ := by
  simp only [perform, drained, h, Bool.false_eq_true, if_false, take_eq h, List.take_length,
    List.drop_length]
  split <;> rfl

theorem perform_write_of_open {p : Pipe} (hr : p.readClosed = false) (hw : p.writeClosed = false)
    (data : Bytes) :
    p.perform (.write data) =
      ⟨{ p with buffer := p.buffer ++ data.take (min data.length p.room) },
        min data.length p.room != 0, .done (.ok (.count (min data.length p.room)))⟩ := by
  simp [perform, accept, hr, hw]

/-- A write on a pipe with a closed end changes nothing. -/
theorem perform_write_of_isClosing {p : Pipe} (h : p.isClosing = true) (data : Bytes) :
    p.perform (.write data) =
      ⟨p, false, .done (.error (if p.readClosed then .readerClosed else .writerShutDown))⟩ := by
  unfold isClosing at h
  by_cases hr : p.readClosed = true
  · simp [perform, accept, hr]
  · simp only [Bool.not_eq_true] at hr
    simp only [hr, Bool.or_false] at h
    simp [perform, accept, hr, h]

/-- What performing a request does to the parts of the pipe. -/
theorem perform_fields (p : Pipe) (r : Request) :
    (p.perform r).pipe.capacity = p.capacity ∧
      (p.perform r).pipe.writeClosed = (p.writeClosed || r == .shutdown) ∧
      (p.perform r).pipe.readClosed = (p.readClosed || r == .close) := by
  cases r with
  | write data =>
    by_cases h : p.isClosing = true
    · simp [perform_write_of_isClosing h]
    · simp only [isClosing, Bool.not_eq_true, Bool.or_eq_false_iff] at h
      simp [perform_write_of_open h.2 h.1]
  | drain got =>
    by_cases h : p.readClosed = true
    · simp [perform, drained, h]
    · simp only [Bool.not_eq_true] at h
      simp [perform_drain_of_open h]
  | read n =>
    by_cases h : p.readClosed = true
    · simp [perform, take_of_readClosed h]
    · simp only [Bool.not_eq_true] at h
      simp [perform, take_eq h]
  | readLine =>
    by_cases h : p.readClosed = true
    · simp [perform, take_of_readClosed h]
    · simp only [Bool.not_eq_true] at h
      simp [perform, take_eq h]
  | flush => simp [perform]
  | shutdown => simp [perform]
  | close => simp [perform]

/-! ### What is served -/

/-- A request is put off, and then the pipe is as before, or it is performed. -/
theorem serve_cases (p : Pipe) (r : Request) :
    (p.admits r = false ∧ p.serve r = ⟨p, false, .wait r⟩) ∨
      (p.admits r = true ∧ p.serve r = p.perform r) := by
  cases h : p.admits r with
  | false => exact .inl ⟨rfl, serve_of_not_admits h⟩
  | true => exact .inr ⟨rfl, serve_of_admits h⟩

/-- Reading to the end empties the buffer; with the write end open it goes on with what it has got. -/
theorem serve_drain_of_open {p : Pipe} (h : p.readClosed = false) (got : Bytes) :
    p.serve (.drain got) =
      ⟨{ p with buffer := [] }, p.buffer.length != 0,
        if p.writeClosed then .done (.ok (.bytes (got ++ p.buffer)))
        else .wait (.drain (got ++ p.buffer))⟩ := by
  obtain ⟨ha, hs⟩ | ⟨-, hs⟩ := serve_cases p (.drain got)
  · -- only an empty pipe with both ends open puts it off
    obtain ⟨hw, -, hcase⟩ := not_admits_iff.1 ha
    have hb : p.buffer = [] := by simpa using hcase
    obtain ⟨buffer, capacity, writeClosed, readClosed⟩ := p
    cases hb
    cases hw
    simp [hs]
  · rw [hs, perform_drain_of_open h]

theorem removed_drain_of_open {p : Pipe} (h : p.readClosed = false) (got : Bytes) :
    p.removed (.drain got) = p.buffer := by
  simp [removed, serve_drain_of_open h, Request.isRead]

@[simp] theorem capacity_serve (p : Pipe) (r : Request) :
    (p.serve r).pipe.capacity = p.capacity := by
  obtain ⟨-, h⟩ | ⟨-, h⟩ := serve_cases p r
  · rw [h]
  · rw [h, (perform_fields p r).1]

theorem writeClosed_serve (p : Pipe) (r : Request) :
    (p.serve r).pipe.writeClosed = (p.writeClosed || r == .shutdown) := by
  obtain ⟨ha, h⟩ | ⟨-, h⟩ := serve_cases p r
  · rw [h]
    have hr : r ≠ .shutdown := by rintro rfl; simp [admits] at ha
    simp [hr]
  · rw [h, (perform_fields p r).2.1]

theorem readClosed_serve (p : Pipe) (r : Request) :
    (p.serve r).pipe.readClosed = (p.readClosed || r == .close) := by
  obtain ⟨ha, h⟩ | ⟨-, h⟩ := serve_cases p r
  · rw [h]
    have hr : r ≠ .close := by rintro rfl; simp [admits] at ha
    simp [hr]
  · rw [h, (perform_fields p r).2.2]

/-- A closed read end admits every request, and the buffer stays as it is, or empty. -/
theorem admits_of_readClosed {p : Pipe} (h : p.readClosed = true) (r : Request) :
    p.admits r = true := by
  cases r <;> simp [admits, readable, h]

/-- Dropping bytes takes as many from the front. -/
theorem take_sub_length_drop (bs : Bytes) (n : Nat) :
    bs.take (bs.length - (bs.drop n).length) = bs.take n := by
  rw [List.length_drop]
  by_cases h : n ≤ bs.length
  · rw [Nat.sub_sub_self h]
  · have hn : bs.length ≤ n := by omega
    rw [Nat.sub_eq_zero_of_le hn, Nat.sub_zero, List.take_length, List.take_of_length_le hn]

/-- A request that takes some bytes from an open pipe removes just these and answers with them. -/
theorem removed_of_perform {p : Pipe} {r : Request} {n : Nat} (h : p.readClosed = false)
    (hr : r.isRead = true) (ha : p.admits r = true)
    (hp : p.perform r = ⟨(p.take n).2.1, (p.take n).2.2, .done (.ok (.bytes (p.take n).1))⟩) :
    p.removed r = p.buffer.take n ∧ (p.serve r).pipe.buffer = p.buffer.drop n ∧
      (p.serve r).reply = .done (.ok (.bytes (p.buffer.take n))) := by
  have hb : (p.serve r).pipe.buffer = p.buffer.drop n := by
    rw [serve_of_admits ha, hp, take_eq h]
  refine ⟨?_, hb, ?_⟩
  · rw [removed, if_pos hr, hb, take_sub_length_drop]
  · rw [serve_of_admits ha, hp, take_eq h]

/-- What a request adds and removes, and what it leaves, with the read end open. -/
theorem buffer_append_accepted {p : Pipe} {r : Request} (h : p.readClosed = false)
    (hr : r ≠ .close) :
    p.buffer ++ p.accepted r = p.removed r ++ (p.serve r).pipe.buffer := by
  obtain ⟨-, hs⟩ | ⟨ha, hs⟩ := serve_cases p r
  · have hz : p.accepted r = [] := by cases r <;> simp [accepted, hs]
    simp [hz, removed, hs]
  · cases r with
    | write data =>
      by_cases hw : p.writeClosed = true
      · simp [accepted, removed, hs, Request.isRead, perform_write_of_isClosing, isClosing, hw]
      · simp only [Bool.not_eq_true] at hw
        simp [accepted, removed, hs, Request.isRead, perform_write_of_open h hw]
    | drain got =>
      rw [perform_drain_of_open h] at hs
      simp [accepted, removed, hs, Request.isRead]
    | read n =>
      obtain ⟨h₁, h₂, -⟩ := removed_of_perform h rfl ha rfl
      simp [h₁, h₂, accepted]
    | readLine =>
      obtain ⟨h₁, h₂, -⟩ := removed_of_perform h rfl ha rfl
      simp [h₁, h₂, accepted]
    | flush => simp [accepted, removed, hs, Request.isRead, perform]
    | shutdown => simp [accepted, removed, hs, Request.isRead, perform]
    | close => exact absurd rfl hr

/-- Once an end is closed nothing is accepted any more. -/
theorem accepted_of_isClosing {p : Pipe} (h : p.isClosing = true) (r : Request) :
    p.accepted r = [] := by
  cases r with
  | write data =>
    have hadm : p.admits (.write data) = true := by
      simp only [isClosing, Bool.or_eq_true] at h
      simp [admits, h]
    simp [accepted, serve_of_admits hadm, perform_write_of_isClosing h]
  | _ => simp [accepted]

theorem accepted_of_readClosed {p : Pipe} (h : p.readClosed = true) (r : Request) :
    p.accepted r = [] := accepted_of_isClosing (by simp [isClosing, h]) r

theorem removed_of_nil {p : Pipe} (h : p.buffer = []) (r : Request) : p.removed r = [] := by
  simp [removed, h]

/-- Closing the read end adds nothing, and drops what is buffered unread. -/
theorem serve_close (p : Pipe) :
    p.serve .close = ⟨{ p with readClosed := true, buffer := [] }, true, .done (.ok .nothing)⟩ :=
  rfl

/-- A closed read end leaves nothing in the buffer, whatever is asked. -/
theorem buffer_serve_of_readClosed {p : Pipe} (h : p.readClosed = true) (hb : p.buffer = [])
    (r : Request) : (p.serve r).pipe.buffer = [] := by
  rw [serve_of_admits (admits_of_readClosed h r)]
  cases r with
  | write data =>
    have hc : p.isClosing = true := by simp [isClosing, h]
    simp [perform_write_of_isClosing hc, hb]
  | drain got => simp [perform, drained, h, hb]
  | read n => simp [perform, take_of_readClosed h, hb]
  | readLine => simp [perform, take_of_readClosed h, hb]
  | flush => exact hb
  | shutdown => exact hb
  | close => rfl

/-- What is accepted fits. -/
theorem length_buffer_append_accepted (p : Pipe) (r : Request) (h : p.buffer.length ≤ p.capacity) :
    (p.buffer ++ p.accepted r).length ≤ p.capacity := by
  obtain ⟨-, hs⟩ | ⟨-, hs⟩ := serve_cases p r
  · have hz : p.accepted r = [] := by cases r <;> simp [accepted, hs]
    simpa [hz] using h
  · cases r with
    | write data =>
      by_cases hc : p.isClosing = true
      · simpa [accepted, hs, perform_write_of_isClosing hc] using h
      · simp only [isClosing, Bool.not_eq_true, Bool.or_eq_false_iff] at hc
        simp only [accepted, hs, perform_write_of_open hc.2 hc.1, List.length_append,
          List.length_take, room]
        omega
    | _ => simpa [accepted] using h

theorem Valid.serve {p : Pipe} (h : p.Valid) (r : Request) : (p.serve r).pipe.Valid := by
  refine ⟨by simpa using h.capacity_pos, ?_, fun hc => ?_⟩
  · rw [capacity_serve]
    by_cases hr : p.readClosed = true
    · rw [buffer_serve_of_readClosed hr (h.buffer_eq_nil hr)]
      exact Nat.zero_le _
    · simp only [Bool.not_eq_true] at hr
      by_cases hcl : r = .close
      · subst hcl
        rw [serve_close]
        exact Nat.zero_le _
      · have hl := length_buffer_append_accepted p r h.length_le
        rw [buffer_append_accepted hr hcl, List.length_append] at hl
        omega
  · rw [readClosed_serve, Bool.or_eq_true, beq_iff_eq] at hc
    rcases hc with hc | rfl
    · exact buffer_serve_of_readClosed hc (h.buffer_eq_nil hc) r
    · rfl

/-! ### Answers -/

/-- Reading some bytes, or a line, is put off and removes nothing, or is answered with just the bytes
that it removes. -/
theorem reply_of_chunk {p : Pipe} {r : Request} (hr : (∃ n, r = .read n) ∨ r = .readLine) :
    ((p.serve r).reply = .wait r ∧ p.removed r = []) ∨
      (p.serve r).reply = .done (.ok (.bytes (p.removed r))) := by
  have hread : r.isRead = true := by rcases hr with ⟨n, rfl⟩ | rfl <;> rfl
  have htake : ∃ n, p.perform r =
      ⟨(p.take n).2.1, (p.take n).2.2, .done (.ok (.bytes (p.take n).1))⟩ := by
    rcases hr with ⟨n, rfl⟩ | rfl
    · exact ⟨n, rfl⟩
    · exact ⟨throughNewline p.buffer, rfl⟩
  obtain ⟨n, hp⟩ := htake
  obtain ⟨-, hs⟩ | ⟨ha, hs⟩ := serve_cases p r
  · left
    simp [removed, hs]
  · right
    by_cases hc : p.readClosed = true
    · rw [take_of_readClosed hc] at hp
      simp [removed, hs, hp]
    · rw [Bool.not_eq_true] at hc
      obtain ⟨hrem, -, hrep⟩ := removed_of_perform hc hread ha hp
      rw [hrep, hrem]

/-- A write adds as many bytes as its answer counts; put off or failing, it adds none. -/
theorem accepted_write (p : Pipe) (data : Bytes) :
    p.accepted (.write data) = match (p.serve (.write data)).reply with
      | .done (.ok (.count k)) => data.take k
      | _ => [] := by
  unfold accepted
  cases (p.serve (.write data)).reply with
  | wait again => rfl
  | done outcome =>
    cases outcome with
    | error f => rfl
    | ok a => cases a <;> rfl

/-- A write is put off, fails, or is answered with a number of bytes. -/
theorem reply_of_write (p : Pipe) (data : Bytes) :
    (p.serve (.write data)).reply = .wait (.write data) ∨
      (∃ k, (p.serve (.write data)).reply = .done (.ok (.count k))) ∨
        ∃ f, (p.serve (.write data)).reply = .done (.error f) := by
  obtain ⟨-, hs⟩ | ⟨-, hs⟩ := serve_cases p (.write data)
  · left
    rw [hs]
  · right
    rw [hs]
    by_cases hc : p.isClosing = true
    · right
      rw [perform_write_of_isClosing hc]
      exact ⟨_, rfl⟩
    · left
      simp only [isClosing, Bool.not_eq_true, Bool.or_eq_false_iff] at hc
      rw [perform_write_of_open hc.2 hc.1]
      exact ⟨_, rfl⟩

/-- A write of some bytes that an open pipe answers has written some. -/
theorem count_ne_zero_of_write {p : Pipe} {data : Bytes} {outcome : Outcome}
    (hc : p.isClosing = false) (hne : data ≠ [])
    (h : (p.serve (.write data)).reply = .done outcome) : ∃ k, k ≠ 0 ∧ outcome = .ok (.count k) := by
  rw [isClosing, Bool.or_eq_false_iff] at hc
  obtain ⟨hw, hr⟩ := hc
  obtain ⟨-, hs⟩ | ⟨ha, hs⟩ := serve_cases p (.write data)
  · rw [hs] at h
    cases h
  · rw [hs, perform_write_of_open hr hw] at h
    cases h
    have hroom : p.buffer.length < p.capacity := by simpa [admits, hw, hr, hne] using ha
    have hlen := List.length_pos_iff.2 hne
    refine ⟨_, ?_, rfl⟩
    rw [room]
    omega

/-! ### Waking and waiting -/

/-- A request that wakes nobody leaves the pipe as it was. -/
theorem serve_of_not_wakes {p : Pipe} {r : Request} (h : (p.serve r).wakes = false) :
    (p.serve r).pipe = p := by
  obtain ⟨-, hs⟩ | ⟨-, hs⟩ := serve_cases p r
  · rw [hs]
  · rw [hs] at h ⊢
    cases r with
    | write data =>
      by_cases hc : p.isClosing = true
      · rw [perform_write_of_isClosing hc]
      · -- an open pipe that wakes nobody has taken no byte
        simp only [isClosing, Bool.not_eq_true, Bool.or_eq_false_iff] at hc
        rw [perform_write_of_open hc.2 hc.1] at h ⊢
        have hn : min data.length p.room = 0 := by simpa using h
        simp [hn]
    | drain got =>
      by_cases hr : p.readClosed = true
      · simp [perform, drained, hr]
      · simp only [Bool.not_eq_true] at hr
        rw [perform_drain_of_open hr] at h ⊢
        have hn : p.buffer = [] := by simpa using h
        cases p
        simp_all
    | read n =>
      by_cases hr : p.readClosed = true
      · simp [perform, take_of_readClosed hr]
      · simp only [Bool.not_eq_true] at hr
        simp only [perform, take_eq hr] at h ⊢
        have hn : n = 0 := by simpa using h
        simp [hn]
    | readLine =>
      by_cases hr : p.readClosed = true
      · simp [perform, take_of_readClosed hr]
      · simp only [Bool.not_eq_true] at hr
        simp only [perform, take_eq hr] at h ⊢
        have hn : throughNewline p.buffer = 0 := by simpa using h
        simp [hn]
    | flush => rfl
    | shutdown => simp [perform] at h
    | close => simp [perform] at h

/-- A request that is put off is refused by the pipe as it is left; only reading to the end has then
done something, and goes on with what it has got. -/
theorem wait_cases {p : Pipe} {r again : Request} (h : (p.serve r).reply = .wait again) :
    (p.serve r).pipe.admits again = false ∧
      ((again = r ∧ (p.serve r).pipe = p) ∨
        ∃ got, r = .drain got ∧ again = .drain (got ++ p.buffer)) := by
  obtain ⟨ha, hs⟩ | ⟨-, hs⟩ := serve_cases p r
  · rw [hs] at h ⊢
    cases h
    exact ⟨ha, .inl ⟨rfl, rfl⟩⟩
  · rw [hs] at h ⊢
    cases r with
    | write data =>
      by_cases hc : p.isClosing = true
      · simp [perform_write_of_isClosing hc] at h
      · simp only [isClosing, Bool.not_eq_true, Bool.or_eq_false_iff] at hc
        simp [perform_write_of_open hc.2 hc.1] at h
    | drain got =>
      by_cases hr : p.readClosed = true
      · simp [perform, drained, hr] at h
      · simp only [Bool.not_eq_true] at hr
        rw [perform_drain_of_open hr] at h ⊢
        by_cases hw : p.writeClosed = true
        · simp [hw] at h
        · simp only [hw, Bool.false_eq_true, if_false, Reply.wait.injEq] at h
          subst h
          simp only [Bool.not_eq_true] at hw
          exact ⟨by simp [admits, readable, hw, hr], .inr ⟨got, rfl, rfl⟩⟩
    | read n => simp [perform] at h
    | readLine => simp [perform] at h
    | flush => simp [perform] at h
    | shutdown => simp [perform] at h
    | close => simp [perform] at h

end Outflow.Pipe

/-
The HTTP/3 frame reader (`FrameReader` of `warrenguard-masque/src/frames.rs`).

The reader yields the payload of DATA frames as it arrives, and skips all other frames.  It never
holds a frame as a whole: between two reads it knows how much of one is still to come, or to be
skipped.

* `parseData` — the payload and the end of a stream, from the bytes alone (RFC 9114), and
  `resume`, the same from the middle of a frame;
* `nextData_resume` — what a call returns, followed by what the reader makes of the rest, is what
  it makes of all;
* `frame_reader_refines` — so the reader yields `parseData` of the bytes, in whatever pieces they
  come;
* `nextFrame_then_data` — the head of a request is the first frame of its type, and the data that
  of the bytes after it.

Design notes: a call that is cancelled while it waits is one whose read finds silence.  A read
brings at least one byte; a piece of the stream without bytes is its end.  Each method has a
relation between the reader before it, what it returns and the reader after it (`Fills`,
`Loads`, `Heads`, `Yields`, `Finds`).
-/
import WarrenGuard.Http3Frames
import WarrenGuard.SegmentedStream

namespace WarrenGuard.Masque

open SegmentedStream

def maxControlFrameBytes : ℕ := 16 * 1024

def transportChunk : ℕ := 64 * 1024

def maxFrameHeaderBytes : ℕ := 16

def frameData : ℕ := 0

/-! ### The data of a stream -/

/-- How a stream of frames ends. -/
inductive End where
  | clean
  | malformed
  | failed
deriving DecidableEq

theorem length_after_frame {bytes : List UInt8} {ty len used : ℕ}
    (h : Http3.frameHeader bytes = some ((ty, len), used)) :
    ((bytes.drop used).drop len).length < bytes.length := by
  rw [Http3.frameHeader_eq] at h
  have hpos := Http3.frameHead.pos h
  have hle := Http3.frameHead.le_length h
  rw [List.drop_drop, List.length_drop]
  omega

/-- **The data of a stream**: the payloads of its DATA frames. The stream is malformed when it
stops inside a frame or has a frame of another type that is too long. -/
def parseData (bytes : List UInt8) : List UInt8 × End :=
  if bytes = [] then ([], .clean)
  else
    match _h : Http3.frameHeader bytes with
    | none => ([], .malformed)
    | some ((ty, len), used) =>
      let body := bytes.drop used
      let rest := parseData (body.drop len)
      if ty = frameData then
        if body.length < len then (body, .malformed) else (body.take len ++ rest.1, rest.2)
      else if maxControlFrameBytes < len then ([], .malformed)
      else if body.length < len then ([], .malformed)
      else rest
termination_by bytes.length
decreasing_by exact length_after_frame _h

/-- The data from a place with `skip` more bytes of a frame to leave out. -/
def resumeSkip (skip : ℕ) (bytes : List UInt8) : List UInt8 × End :=
  if bytes.length < skip then ([], .malformed) else parseData (bytes.drop skip)

/-- The data from a place with `remaining` more bytes of a DATA frame to come, and then `skip`
bytes to leave out. -/
def resume (remaining skip : ℕ) (bytes : List UInt8) : List UInt8 × End :=
  if bytes.length < remaining then (bytes, .malformed)
  else
    let rest := resumeSkip skip (bytes.drop remaining)
    (bytes.take remaining ++ rest.1, rest.2)

section Resume

variable {bytes : List UInt8} {ty len used : ℕ}

theorem resume_zero (skip : ℕ) (bytes) :
    resume 0 skip bytes = resumeSkip skip bytes := by
  simp [resume]

theorem resumeSkip_zero (bytes) : resumeSkip 0 bytes = parseData bytes := by
  simp [resumeSkip]

theorem parseData_nil : parseData [] = ([], .clean) := by
  rw [parseData, if_pos rfl]

theorem ne_nil_of_frameHeader (h : Http3.frameHeader bytes = some ((ty, len), used)) :
    bytes ≠ [] := by
  rintro rfl
  rw [Http3.frameHeader_eq, FrontParser.run_nil] at h
  cases h

theorem parseData_of_none (hne : bytes ≠ []) (h : Http3.frameHeader bytes = none) :
    parseData bytes = ([], .malformed) := by
  rw [parseData, if_neg hne]
  split
  · rfl
  · rename_i hsome
    rw [h] at hsome
    cases hsome

/-- After the header of a DATA frame its payload is to come, and after that of another frame it is
to be left out. -/
theorem parseData_of_some (h : Http3.frameHeader bytes = some ((ty, len), used)) :
    parseData bytes = if ty = frameData then resume len 0 (bytes.drop used)
      else if maxControlFrameBytes < len then ([], .malformed)
      else resume 0 len (bytes.drop used) := by
  rw [parseData, if_neg (ne_nil_of_frameHeader h)]
  split
  · rename_i hnone
    rw [h] at hnone
    cases hnone
  · rename_i hsome
    rw [h] at hsome
    cases hsome
    dsimp only
    rw [resume, resumeSkip_zero, resume_zero, resumeSkip]

theorem resume_split {n remaining : ℕ} (hn : n ≤ remaining) (hle : n ≤ bytes.length) (skip : ℕ) :
    resume remaining skip bytes
      = (bytes.take n ++ (resume (remaining - n) skip (bytes.drop n)).1,
        (resume (remaining - n) skip (bytes.drop n)).2) := by
  have hlength : (bytes.drop n).length < remaining - n ↔ bytes.length < remaining := by
    rw [List.length_drop]
    omega
  unfold resume
  simp only [hlength]
  split
  · rw [List.take_append_drop]
  · have hsplit : bytes.take remaining = bytes.take n ++ (bytes.drop n).take (remaining - n) := by
      rw [← List.take_add, Nat.add_sub_cancel' hn]
    rw [hsplit, List.drop_drop, Nat.add_sub_cancel' hn, List.append_assoc]

theorem resumeSkip_split {n skip : ℕ} (hn : n ≤ skip) (hle : n ≤ bytes.length) :
    resumeSkip skip bytes = resumeSkip (skip - n) (bytes.drop n) := by
  have hlength : (bytes.drop n).length < skip - n ↔ bytes.length < skip := by
    rw [List.length_drop]
    omega
  simp only [resumeSkip, hlength, List.drop_drop, Nat.add_sub_cancel' hn]

end Resume

/-! ### The reader -/

structure FrameReader where
  recv : List (Arrival UInt8)
  pending : List UInt8
  remainingData : ℕ
  skip : ℕ
  finished : Bool

/-- How a wait for the transport ends. -/
inductive Filled where
  | more
  | ended
  | cancelled
  | failed
deriving DecidableEq

/-- How a look for the next header ends. -/
inductive Headed where
  | header (ty len used : ℕ)
  | ended
  | malformed
  | cancelled
  | failed
deriving DecidableEq

/-- What a call returns. -/
inductive Polled where
  | data (chunk : List UInt8)
  | ended
  | malformed
  | cancelled
  | failed
deriving DecidableEq

namespace FrameReader

def new (recv : List (Arrival UInt8)) (before : List UInt8) : FrameReader :=
  ⟨recv, before, 0, 0, false⟩

variable (r : FrameReader)

def fill : Filled × FrameReader :=
  if r.finished then (.ended, r)
  else
    match read transportChunk r.recv with
    | (.bytes chunk, recv) => (.more, { r with recv, pending := r.pending ++ chunk })
    | (.closed, recv) => (.ended, { r with recv, finished := true })
    | (.elapsed, recv) => (.cancelled, { r with recv })
    | (.failed, recv) => (.failed, { r with recv })

/-- `pending.is_empty() && !fill()`: there are bytes, or there are now. -/
def ready : Filled × FrameReader :=
  if r.pending = [] then r.fill else (.more, r)

def incoming : List UInt8 := if r.finished then [] else content r.recv

def bytes : List UInt8 := r.pending ++ r.incoming

def Intact : Prop := r.finished = false → broken r.recv = false

/-- What the loops of the reader go down on. -/
def size : ℕ := r.pending.length + 2 * weight r.recv

/-- The same bytes at the same place in a frame, with no more to do. -/
structure Same (r r' : FrameReader) : Prop where
  bytes_eq : r'.bytes = r.bytes
  remainingData_eq : r'.remainingData = r.remainingData
  skip_eq : r'.skip = r.skip
  intact : r.Intact → r'.Intact
  size_le : r'.size ≤ r.size

variable {r r' r'' : FrameReader}

theorem Same.refl (r) : Same r r := ⟨rfl, rfl, rfl, id, Nat.le_refl _⟩

theorem Same.trans (h : Same r r') (h' : Same r' r'') : Same r r'' :=
  ⟨h'.bytes_eq.trans h.bytes_eq, h'.remainingData_eq.trans h.remainingData_eq,
    h'.skip_eq.trans h.skip_eq, h'.intact ∘ h.intact, Nat.le_trans h'.size_le h.size_le⟩

/-- What a wait leaves behind. -/
def Fills (r : FrameReader) : Filled → FrameReader → Prop
  | .more, r' => Same r r' ∧ r'.pending ≠ [] ∧ weight r'.recv < weight r.recv
  | .ended, r' => r'.pending = r.pending ∧ r.incoming = []
  | .cancelled, r' => Same r r' ∧ r'.size < r.size
  | .failed, _ => ¬ r.Intact

/-- **A wait** brings bytes, or finds that there are none, or is cancelled and changes nothing. -/
theorem fill_spec {how : Filled} (h : r.fill = (how, r')) : r.Fills how r' := by
  unfold fill at h
  split at h
  · rename_i hfinished
    cases h
    exact ⟨rfl, if_pos hfinished⟩
  rename_i hopen
  rw [Bool.not_eq_true] at hopen
  have hincoming : r.incoming = content r.recv := by
    rw [incoming, hopen]
    rfl
  rcases read_cases (show 0 < transportChunk by decide) r.recv with
    ⟨chunk, recv, hread, hne, hcontent, hbroken, hweight⟩ | ⟨recv, hread, hcontent⟩ |
      ⟨recv, hread, hcontent, hbroken, hweight⟩ | ⟨recv, hread, hbroken⟩
  all_goals
    rw [hread] at h
    cases h
  · have hpos := List.length_pos_iff.mpr hne
    refine ⟨⟨?_, rfl, rfl, ?_, ?_⟩, ?_, ?_⟩
    · rw [bytes, bytes, hincoming, hcontent, incoming, hopen, ← List.append_assoc]
      rfl
    · intro hintact _
      exact hbroken.trans (hintact hopen)
    · simp only [size, List.length_append]
      omega
    · simp [hne]
    · dsimp only
      omega
  · exact ⟨rfl, hincoming.trans hcontent⟩
  · refine ⟨⟨?_, rfl, rfl, ?_, ?_⟩, ?_⟩
    · rw [bytes, bytes, hincoming, incoming, hopen, ← hcontent]
      rfl
    · intro hintact _
      exact hbroken.trans (hintact hopen)
    · simp only [size]
      omega
    · simp only [size]
      omega
  · intro hintact
    rw [hintact hopen] at hbroken
    cases hbroken

/-- What a wait for `len` bytes leaves behind. -/
def Loads (len : ℕ) (r : FrameReader) : Filled → FrameReader → Prop
  | .more, r' => Same r r' ∧ len ≤ r'.pending.length
  | .ended, _ => r.bytes.length < len
  | .cancelled, r' => Same r r' ∧ r'.size < r.size
  | .failed, _ => ¬ r.Intact

/-- A wait that is for more than there is ends as `fill` does. -/
theorem Loads.of_fill {how : Filled} {len : ℕ} (hshort : ¬ len ≤ r.pending.length)
    (h : r.fill = (how, r')) (hmore : how = .more → len ≤ r'.pending.length) :
    Loads len r how r' := by
  have hfill := fill_spec h
  cases how with
  | more => exact ⟨hfill.1, hmore rfl⟩
  | ended =>
    change (r.pending ++ r.incoming).length < len
    rw [hfill.2, List.append_nil]
    exact Nat.lt_of_not_le hshort
  | cancelled => exact hfill
  | failed => exact hfill

theorem Loads.nil (h : Loads 1 r .ended r') : r.bytes = [] :=
  List.length_eq_zero_iff.mp (Nat.lt_one_iff.mp h)

theorem ready_spec {how : Filled} (h : r.ready = (how, r')) : Loads 1 r how r' := by
  unfold ready at h
  split at h
  · rename_i hempty
    refine .of_fill (by simp [hempty]) h ?_
    rintro rfl
    exact List.length_pos_iff.mpr (fill_spec h).2.1
  · rename_i hne
    cases h
    exact ⟨.refl r, List.length_pos_iff.mpr hne⟩

/-! ### The next header -/

/-- `frame_header`: the next header, which stays in `pending`. -/
def frameHeader (r : FrameReader) : Headed × FrameReader :=
  match Http3.frameHeader r.pending with
  | some ((ty, len), used) => (.header ty len used, r)
  | none =>
    if maxFrameHeaderBytes ≤ r.pending.length then (.malformed, r)
    else
      match _h : r.fill with
      | (.more, r') => r'.frameHeader
      | (.ended, r') => (if r'.pending = [] then .ended else .malformed, r')
      | (.cancelled, r') => (.cancelled, r')
      | (.failed, r') => (.failed, r')
termination_by weight r.recv
decreasing_by exact (fill_spec _h).2.2

/-- What `frame_header` leaves behind. -/
def Heads (r : FrameReader) : Headed → FrameReader → Prop
  | .header ty len used, r' =>
    Same r r' ∧ Http3.frameHeader r'.pending = some ((ty, len), used)
  | .ended, _ => r.bytes = []
  | .malformed, _ => r.bytes ≠ [] ∧ Http3.frameHeader r.bytes = none
  | .cancelled, r' => Same r r' ∧ r'.size < r.size
  | .failed, _ => ¬ r.Intact

theorem Heads.of_same (hsame : Same r r') {how : Headed} (h : r'.Heads how r'') :
    r.Heads how r'' := by
  cases how with
  | header ty len used => exact ⟨hsame.trans h.1, h.2⟩
  | ended => exact hsame.bytes_eq.symm.trans h
  | malformed =>
    change r.bytes ≠ [] ∧ _
    rw [← hsame.bytes_eq]
    exact h
  | cancelled => exact ⟨hsame.trans h.1, Nat.lt_of_lt_of_le h.2 hsame.size_le⟩
  | failed => exact fun hintact => h (hsame.intact hintact)

/-- **The next header** is that of the bytes to come. -/
theorem heads_frameHeader (r : FrameReader) : r.Heads r.frameHeader.1 r.frameHeader.2 := by
  fun_induction frameHeader r with
  | case1 r ty len used hheader => exact ⟨.refl r, hheader⟩
  | case2 r hnone hlong =>
    -- sixteen bytes hold every header
    have hlt := Http3.frameHeader_lt hnone
    unfold maxFrameHeaderBytes at hlong
    omega
  | case3 r hnone hshort r' hfill ih => exact .of_same (fill_spec hfill).1 ih
  | case4 r hnone hshort r' hfill =>
    obtain ⟨hpending, hincoming⟩ := fill_spec hfill
    have hbytes : r.bytes = r.pending := by rw [bytes, hincoming, List.append_nil]
    rw [hpending]
    split
    · rename_i hempty
      exact hbytes.trans hempty
    · rename_i hne
      exact ⟨hbytes.trans_ne hne, hbytes ▸ hnone⟩
  | case5 r hnone hshort r' hfill => exact fill_spec hfill
  | case6 r hnone hshort r' hfill => exact fill_spec hfill

theorem frameHeader_spec {how : Headed} (h : r.frameHeader = (how, r')) : r.Heads how r' := by
  have hheads := heads_frameHeader r
  rw [h] at hheads
  exact hheads

variable {len ty used : ℕ}

theorem header_bounds (h : Http3.frameHeader r.pending = some ((ty, len), used)) :
    0 < used ∧ used ≤ r.pending.length ∧ Http3.frameHeader r.bytes = some ((ty, len), used) := by
  rw [Http3.frameHeader_eq] at h ⊢
  exact ⟨Http3.frameHead.pos h, Http3.frameHead.le_length h, Http3.frameHead.append h _⟩

/-! ### The next piece of data -/

def advance (r : FrameReader) (n : ℕ) : FrameReader := { r with pending := r.pending.drop n }

theorem size_advance {n : ℕ} (hpos : 0 < n) (hle : n ≤ r.pending.length) :
    (r.advance n).size < r.size := by
  simp only [size, advance, List.length_drop]
  omega

theorem bytes_advance {n : ℕ} (hle : n ≤ r.pending.length) :
    (r.advance n).bytes = r.bytes.drop n := by
  rw [bytes, bytes, List.drop_append_of_le_length hle]
  rfl

theorem length_pending_le (r : FrameReader) : r.pending.length ≤ r.bytes.length := by
  rw [bytes, List.length_append]
  exact Nat.le_add_right _ _

theorem size_skipped (hskip : 0 < r.skip) (h : r.ready = (.more, r')) :
    (r'.advance (min r'.pending.length r'.skip)).size < r.size := by
  obtain ⟨hsame, hpos⟩ := ready_spec h
  rw [← hsame.skip_eq] at hskip
  exact Nat.lt_of_lt_of_le (size_advance (by omega) (by omega)) hsame.size_le

theorem size_header (h : r.frameHeader = (.header ty len used, r')) :
    (r'.advance used).size < r.size := by
  obtain ⟨hsame, hheader⟩ := frameHeader_spec h
  obtain ⟨hpos, hle, -⟩ := header_bounds hheader
  exact Nat.lt_of_lt_of_le (size_advance hpos hle) hsame.size_le

def nextData (r : FrameReader) : Polled × FrameReader :=
  if 0 < r.remainingData then
    match r.ready with
    | (.more, r') =>
      let n := min r'.pending.length r'.remainingData
      (.data (r'.pending.take n), { r'.advance n with remainingData := r'.remainingData - n })
    | (.ended, r') => (.malformed, r')
    | (.cancelled, r') => (.cancelled, r')
    | (.failed, r') => (.failed, r')
  else if _hskip : 0 < r.skip then
    match _h : r.ready with
    | (.more, r') =>
      let n := min r'.pending.length r'.skip
      nextData { r'.advance n with skip := r'.skip - n }
    | (.ended, r') => (.malformed, r')
    | (.cancelled, r') => (.cancelled, r')
    | (.failed, r') => (.failed, r')
  else
    match _h : r.frameHeader with
    | (.header ty len used, r') =>
      if ty = frameData then nextData { r'.advance used with remainingData := len }
      else if maxControlFrameBytes < len then (.malformed, r'.advance used)
      else nextData { r'.advance used with skip := len }
    | (.ended, r') => (.ended, r')
    | (.malformed, r') => (.malformed, r')
    | (.cancelled, r') => (.cancelled, r')
    | (.failed, r') => (.failed, r')
termination_by r.size
decreasing_by
  · exact size_skipped _hskip _h
  · exact size_header _h
  · exact size_header _h

def outcome (r : FrameReader) : List UInt8 × End := resume r.remainingData r.skip r.bytes

/-- As much to come, with less to do. -/
structure Ahead (r r' : FrameReader) : Prop where
  outcome_eq : r'.outcome = r.outcome
  intact : r.Intact → r'.Intact
  size_lt : r'.size < r.size

theorem Same.ahead (h : Same r r') (hsize : r'.size < r.size) : Ahead r r' := by
  refine ⟨?_, h.intact, hsize⟩
  rw [outcome, outcome, h.remainingData_eq, h.skip_eq, h.bytes_eq]

theorem Ahead.trans (h : Ahead r r') (h' : Ahead r' r'') : Ahead r r'' :=
  ⟨h'.outcome_eq.trans h.outcome_eq, h'.intact ∘ h.intact, Nat.lt_trans h'.size_lt h.size_lt⟩

/-- What a call of `next_data` says of what there is to come. -/
def Yields (r : FrameReader) : Polled → FrameReader → Prop
  | .data chunk, r' =>
    r.outcome = (chunk ++ r'.outcome.1, r'.outcome.2) ∧ (r.Intact → r'.Intact) ∧ r'.size < r.size
  | .ended, _ => r.outcome = ([], .clean)
  | .malformed, _ => r.outcome = ([], .malformed)
  | .cancelled, r' => Ahead r r'
  | .failed, _ => ¬ r.Intact

theorem Yields.of_ahead (hahead : Ahead r r') {what : Polled} (h : r'.Yields what r'') :
    r.Yields what r'' := by
  cases what with
  | data chunk =>
    obtain ⟨houtcome, hintact, hsize⟩ := h
    exact ⟨hahead.outcome_eq.symm.trans houtcome, hintact ∘ hahead.intact,
      Nat.lt_trans hsize hahead.size_lt⟩
  | ended => exact hahead.outcome_eq.symm.trans h
  | malformed => exact hahead.outcome_eq.symm.trans h
  | cancelled => exact hahead.trans h
  | failed => exact fun hintact => h (hahead.intact hintact)

theorem outcome_skipping (hdata : ¬ 0 < r.remainingData) :
    r.outcome = resumeSkip r.skip r.bytes := by
  rw [outcome, Nat.eq_zero_of_not_pos hdata, resume_zero]

theorem outcome_between (hdata : ¬ 0 < r.remainingData) (hskip : ¬ 0 < r.skip) :
    r.outcome = parseData r.bytes := by
  rw [outcome_skipping hdata, Nat.eq_zero_of_not_pos hskip, resumeSkip_zero]

theorem ahead_skipped (hdata : ¬ 0 < r.remainingData) (hskip : 0 < r.skip)
    (h : r.ready = (.more, r')) :
    Ahead r { r'.advance (min r'.pending.length r'.skip) with
      skip := r'.skip - min r'.pending.length r'.skip } := by
  obtain ⟨hsame, -⟩ := ready_spec h
  refine ⟨?_, hsame.intact, size_skipped hskip h⟩
  have hdata' : ¬ 0 < r'.remainingData := hsame.remainingData_eq ▸ hdata
  have hle : min r'.pending.length r'.skip ≤ r'.pending.length := Nat.min_le_left _ _
  rw [outcome_skipping hdata, ← hsame.bytes_eq, ← hsame.skip_eq,
    resumeSkip_split (Nat.min_le_right _ _) (Nat.le_trans hle r'.length_pending_le),
    ← bytes_advance hle]
  exact outcome_skipping hdata'

theorem header_found (h : r.frameHeader = (.header ty len used, r')) :
    Same r r' ∧ Http3.frameHeader r.bytes = some ((ty, len), used) ∧
      (r'.advance used).bytes = r.bytes.drop used := by
  obtain ⟨hsame, hheader⟩ := frameHeader_spec h
  obtain ⟨-, hle, hfound⟩ := header_bounds hheader
  rw [← hsame.bytes_eq]
  exact ⟨hsame, hfound, bytes_advance hle⟩

theorem ahead_data (hdata : ¬ 0 < r.remainingData) (hskip : ¬ 0 < r.skip)
    (h : r.frameHeader = (.header frameData len used, r')) :
    Ahead r { r'.advance used with remainingData := len } := by
  obtain ⟨hsame, hheader, hbytes⟩ := header_found h
  have hskip' : r'.skip = 0 := hsame.skip_eq.trans (Nat.eq_zero_of_not_pos hskip)
  refine ⟨?_, hsame.intact, size_header h⟩
  rw [outcome_between hdata hskip, parseData_of_some hheader, if_pos rfl, ← hbytes, ← hskip']
  rfl

theorem ahead_other (hdata : ¬ 0 < r.remainingData) (hskip : ¬ 0 < r.skip)
    (h : r.frameHeader = (.header ty len used, r')) (hty : ty ≠ frameData)
    (hlen : ¬ maxControlFrameBytes < len) : Ahead r { r'.advance used with skip := len } := by
  obtain ⟨hsame, hheader, hbytes⟩ := header_found h
  have hdata' : r'.remainingData = 0 :=
    hsame.remainingData_eq.trans (Nat.eq_zero_of_not_pos hdata)
  refine ⟨?_, hsame.intact, size_header h⟩
  rw [outcome_between hdata hskip, parseData_of_some hheader, if_neg hty, if_neg hlen, ← hbytes,
    ← hdata']
  rfl

theorem yields_data (hdata : 0 < r.remainingData) (h : r.ready = (.more, r')) :
    r.Yields (.data (r'.pending.take (min r'.pending.length r'.remainingData)))
      { r'.advance (min r'.pending.length r'.remainingData) with
        remainingData := r'.remainingData - min r'.pending.length r'.remainingData } := by
  obtain ⟨hsame, hpos⟩ := ready_spec h
  have hdata' : 0 < r'.remainingData := hsame.remainingData_eq ▸ hdata
  have hle : min r'.pending.length r'.remainingData ≤ r'.pending.length := Nat.min_le_left _ _
  refine ⟨?_, hsame.intact, ?_⟩
  · rw [outcome, ← hsame.bytes_eq, ← hsame.remainingData_eq, ← hsame.skip_eq,
      resume_split (Nat.min_le_right _ _) (Nat.le_trans hle r'.length_pending_le),
      ← bytes_advance hle]
    have htake : r'.bytes.take (min r'.pending.length r'.remainingData)
        = r'.pending.take (min r'.pending.length r'.remainingData) :=
      List.take_append_of_le_length hle
    rw [htake]
    rfl
  · exact Nat.lt_of_lt_of_le (size_advance (by omega) hle) hsame.size_le

/-- **A call of `next_data`** takes its part off what there is to come; a cancelled one takes
nothing. -/
theorem nextData_resume (r : FrameReader) : r.Yields r.nextData.1 r.nextData.2 := by
  fun_induction nextData r with
  | case1 r hdata r' hready n => exact yields_data hdata hready
  | case2 r hdata r' hready =>
    change resume _ _ r.bytes = _
    rw [(ready_spec hready).nil, resume, List.length_nil, if_pos hdata]
  | case3 r hdata r' hready => exact (ready_spec hready).1.ahead (ready_spec hready).2
  | case4 r hdata r' hready => exact ready_spec hready
  | case5 r hdata hskip r' hready n ih => exact .of_ahead (ahead_skipped hdata hskip hready) ih
  | case6 r hdata hskip r' hready =>
    change r.outcome = _
    rw [outcome_skipping hdata, (ready_spec hready).nil, resumeSkip,
      List.length_nil, if_pos hskip]
  | case7 r hdata hskip r' hready => exact (ready_spec hready).1.ahead (ready_spec hready).2
  | case8 r hdata hskip r' hready => exact ready_spec hready
  | case9 r hdata hskip len used r' hheader ih =>
    exact .of_ahead (ahead_data hdata hskip hheader) ih
  | case10 r hdata hskip ty len used r' hheader hty hlen =>
    change r.outcome = _
    rw [outcome_between hdata hskip, parseData_of_some (header_found hheader).2.1, if_neg hty,
      if_pos hlen]
  | case11 r hdata hskip ty len used r' hheader hty hlen ih =>
    exact .of_ahead (ahead_other hdata hskip hheader hty hlen) ih
  | case12 r hdata hskip r' hheader =>
    change r.outcome = _
    rw [outcome_between hdata hskip, show r.bytes = [] from frameHeader_spec hheader, parseData_nil]
  | case13 r hdata hskip r' hheader =>
    obtain ⟨hne, hnone⟩ := frameHeader_spec hheader
    change r.outcome = _
    rw [outcome_between hdata hskip, parseData_of_none hne hnone]
  | case14 r hdata hskip r' hheader =>
    exact (frameHeader_spec hheader).1.ahead (frameHeader_spec hheader).2
  | case15 r hdata hskip r' hheader => exact frameHeader_spec hheader

theorem nextData_spec {what : Polled} (h : r.nextData = (what, r')) : r.Yields what r' := by
  have hyields := nextData_resume r
  rw [h] at hyields
  exact hyields

/-! ### All data -/

/-- A caller that asks for data until there is none, and asks again after a cancelled call. -/
def readAll (r : FrameReader) : List UInt8 × End :=
  match _h : r.nextData with
  | (.data chunk, r') => (chunk ++ (readAll r').1, (readAll r').2)
  | (.ended, _) => ([], .clean)
  | (.malformed, _) => ([], .malformed)
  | (.cancelled, r') => readAll r'
  | (.failed, _) => ([], .failed)
termination_by r.size
decreasing_by
  · exact (nextData_spec _h).2.2
  · exact (nextData_spec _h).size_lt

/-- **All data** is what there was to come. -/
theorem readAll_outcome (h : r.Intact) : r.readAll = r.outcome := by
  fun_induction readAll r with
  | case1 r chunk r' hnext ih =>
    obtain ⟨houtcome, hintact, -⟩ := nextData_spec hnext
    rw [ih (hintact h), houtcome]
  | case2 r r' hnext => exact (nextData_spec hnext).symm
  | case3 r r' hnext => exact (nextData_spec hnext).symm
  | case4 r r' hnext ih =>
    have hahead : Ahead r r' := nextData_spec hnext
    rw [ih (hahead.intact h), hahead.outcome_eq]
  | case5 r r' hnext => exact absurd h (nextData_spec hnext)

/-- **The frame reader refines the parse of the bytes.**  A stream that does not break gives the
same data and the same end however its bytes are cut into a beginning and chunks, and wherever
calls are cancelled: those of the bytes as a whole. -/
theorem frame_reader_refines (before : List UInt8) (recv : List (Arrival UInt8))
    (h : broken recv = false) :
    (new recv before).readAll = parseData (before ++ content recv) := by
  rw [readAll_outcome (r := new recv before) fun _ => h]
  exact outcome_between (Nat.lt_irrefl 0) (Nat.lt_irrefl 0)

/-- A DATA frame of three bytes whose header is cut and whose payload is cut, after a frame of
type 33 and with a cancelled call in the middle. -/
theorem frame_reader_refines_cut :
    (new [.data [0xAA, 0x00], .silence, .data [0x03, 1], .silence, .data [2, 3]] [33, 1]).readAll
      = ([1, 2, 3], .clean) := by
  rw [frame_reader_refines _ _ rfl]
  change parseData [33, 1, 0xAA, 0x00, 0x03, 1, 2, 3] = _
  have hother : Http3.frameHeader [33, 1, 0xAA, 0x00, 0x03, 1, 2, 3] = some ((33, 1), 2) := by
    decide
  have hdata : Http3.frameHeader [0x00, 0x03, 1, 2, 3] = some ((frameData, 3), 2) := by decide
  rw [parseData_of_some hother, if_neg (by decide), if_neg (by decide), resume_zero]
  change parseData [0x00, 0x03, 1, 2, 3] = _
  rw [parseData_of_some hdata, if_pos rfl]
  change ([1, 2, 3] ++ (resumeSkip 0 []).1, (resumeSkip 0 []).2) = _
  rw [resumeSkip_zero, parseData_nil]
  rfl

/-! ### The head of a request -/

variable {wanted : ℕ}

/-- **The first frame of a type**, with the bytes after it, or how a stream stops before it. -/
inductive FirstFrame (wanted : ℕ) : List UInt8 → Except End (List UInt8 × List UInt8) → Prop
  | ended : FirstFrame wanted [] (.error .clean)
  | headless {bytes : List UInt8} (hne : bytes ≠ []) (h : Http3.frameHeader bytes = none) :
    FirstFrame wanted bytes (.error .malformed)
  | refused {bytes : List UInt8} {ty len used : ℕ}
    (h : Http3.frameHeader bytes = some ((ty, len), used))
    (hbad : (maxControlFrameBytes < len ∨ ty = frameData ∧ ty ≠ wanted) ∨
      (bytes.drop used).length < len) : FirstFrame wanted bytes (.error .malformed)
  | found {bytes : List UInt8} {len used : ℕ}
    (h : Http3.frameHeader bytes = some ((wanted, len), used)) (hlen : len ≤ maxControlFrameBytes)
    (hle : len ≤ (bytes.drop used).length) :
    FirstFrame wanted bytes (.ok ((bytes.drop used).take len, (bytes.drop used).drop len))
  | later {bytes : List UInt8} {ty len used : ℕ} {x : Except End (List UInt8 × List UInt8)}
    (h : Http3.frameHeader bytes = some ((ty, len), used)) (hlen : len ≤ maxControlFrameBytes)
    (hty : ty ≠ wanted) (hdata : ty ≠ frameData) (hle : len ≤ (bytes.drop used).length)
    (hrest : FirstFrame wanted ((bytes.drop used).drop len) x) : FirstFrame wanted bytes x

/-- `while pending.len() < len`: waits for the whole of a frame. -/
def fillTo (len : ℕ) (r : FrameReader) : Filled × FrameReader :=
  if len ≤ r.pending.length then (.more, r)
  else
    match _h : r.fill with
    | (.more, r') => r'.fillTo len
    | (how, r') => (how, r')
termination_by weight r.recv
decreasing_by exact (fill_spec _h).2.2

theorem fillTo_spec {how : Filled} (h : r.fillTo len = (how, r')) : Loads len r how r' := by
  fun_induction fillTo len r with
  | case1 r hle =>
    cases h
    exact ⟨.refl _, hle⟩
  | case2 r hshort r₁ hfill ih =>
    have hsame := (fill_spec hfill).1
    cases how with
    | more => exact ⟨hsame.trans (ih h).1, (ih h).2⟩
    | ended => exact Nat.lt_of_le_of_lt (Nat.le_of_eq (congrArg _ hsame.bytes_eq.symm)) (ih h)
    | cancelled => exact ⟨hsame.trans (ih h).1, Nat.lt_of_lt_of_le (ih h).2 hsame.size_le⟩
    | failed => exact fun hintact => ih h (hsame.intact hintact)
  | case3 r hshort how₁ r₁ hmore hfill =>
    cases h
    exact .of_fill hshort hfill fun heq => absurd heq hmore

theorem size_frame (h : r.frameHeader = (.header ty len used, r'))
    (hfill : (r'.advance used).fillTo len = (.more, r'')) : (r''.advance len).size < r.size := by
  have hloaded := (fillTo_spec hfill).1.size_le
  have hheader := size_header h
  simp only [size, advance, List.length_drop] at hloaded hheader ⊢
  omega

def nextFrame (wanted : ℕ) (r : FrameReader) : Polled × FrameReader :=
  match _h : r.frameHeader with
  | (.header ty len used, r') =>
    if maxControlFrameBytes < len ∨ ty = frameData ∧ ty ≠ wanted then (.malformed, r')
    else
      match _hfill : (r'.advance used).fillTo len with
      | (.more, r'') =>
        if ty = wanted then (.data (r''.pending.take len), r''.advance len)
        else nextFrame wanted (r''.advance len)
      | (.ended, r'') => (.malformed, r'')
      | (.cancelled, r'') => (.cancelled, r'')
      | (.failed, r'') => (.failed, r'')
  | (.ended, r') => (.ended, r')
  | (.malformed, r') => (.malformed, r')
  | (.cancelled, r') => (.cancelled, r')
  | (.failed, r') => (.failed, r')
termination_by r.size
decreasing_by exact size_frame _h _hfill

/-- What a call of `next_frame` says of the bytes.  One that is cancelled may have taken some of
them, and its callers give up. -/
def Finds (wanted : ℕ) (r : FrameReader) : Polled → FrameReader → Prop
  | .data payload, r' => FirstFrame wanted r.bytes (.ok (payload, r'.bytes)) ∧
    (r.Intact → r'.Intact) ∧ r'.remainingData = r.remainingData ∧ r'.skip = r.skip
  | .ended, _ => FirstFrame wanted r.bytes (.error .clean)
  | .malformed, _ => FirstFrame wanted r.bytes (.error .malformed)
  | .cancelled, _ => True
  | .failed, _ => ¬ r.Intact

/-- Where a frame is there as a whole, and what is kept up to its end. -/
theorem frame_loaded (h : r.frameHeader = (.header ty len used, r'))
    (hfill : (r'.advance used).fillTo len = (.more, r'')) :
    len ≤ r''.pending.length ∧ r''.bytes = r.bytes.drop used ∧ (r.Intact → r''.Intact) ∧
      r''.remainingData = r.remainingData ∧ r''.skip = r.skip := by
  obtain ⟨hsame, -, hbytes⟩ := header_found h
  obtain ⟨hloaded, hle⟩ := fillTo_spec hfill
  exact ⟨hle, hloaded.bytes_eq.trans hbytes, fun h => hloaded.intact (hsame.intact h),
    hloaded.remainingData_eq.trans hsame.remainingData_eq, hloaded.skip_eq.trans hsame.skip_eq⟩

/-- **A call of `next_frame`** finds the first frame of the type it wants. -/
theorem nextFrame_finds (r : FrameReader) :
    Finds wanted r (r.nextFrame wanted).1 (r.nextFrame wanted).2 := by
  fun_induction nextFrame wanted r with
  | case1 r ty len used r' hheader hbad => exact .refused (header_found hheader).2.1 (.inl hbad)
  | case2 r len used r' r'' hfill hheader hok =>
    obtain ⟨hle, hbody, hkept⟩ := frame_loaded hheader hfill
    have hfound := FirstFrame.found (header_found hheader).2.1 (by omega)
      (hbody ▸ Nat.le_trans hle r''.length_pending_le)
    rw [← hbody, ← bytes_advance hle] at hfound
    exact ⟨List.take_append_of_le_length hle ▸ hfound, hkept⟩
  | case3 r ty len used r' hheader hok r'' hfill hty ih =>
    obtain ⟨hle, hbody, hintact, hdata, hskip⟩ := frame_loaded hheader hfill
    have hlater {x} (h : FirstFrame wanted (r''.advance len).bytes x) :
        FirstFrame wanted r.bytes x := by
      rw [bytes_advance hle, hbody] at h
      exact .later (header_found hheader).2.1 (by omega) hty (by tauto)
        (hbody ▸ Nat.le_trans hle r''.length_pending_le) h
    generalize nextFrame wanted (r''.advance len) = x at ih ⊢
    obtain ⟨what, r₁⟩ := x
    cases what with
    | data payload =>
      exact ⟨hlater ih.1, ih.2.1 ∘ hintact, ih.2.2.1.trans hdata, ih.2.2.2.trans hskip⟩
    | ended => exact hlater ih
    | malformed => exact hlater ih
    | cancelled => trivial
    | failed => exact fun h => ih (hintact h)
  | case4 r ty len used r' hheader hok r'' hfill =>
    obtain ⟨-, hfound, hbytes⟩ := header_found hheader
    have hshort : (r'.advance used).bytes.length < len := fillTo_spec hfill
    exact .refused hfound (.inr (hbytes ▸ hshort))
  | case5 => trivial
  | case6 r ty len used r' hheader hok r'' hfill =>
    exact fun h => fillTo_spec hfill ((header_found hheader).1.intact h)
  | case7 r r' hheader =>
    change FirstFrame wanted r.bytes _
    rw [show r.bytes = [] from frameHeader_spec hheader]
    exact .ended
  | case8 r r' hheader => exact .headless (frameHeader_spec hheader).1 (frameHeader_spec hheader).2
  | case9 => trivial
  | case10 r r' hheader => exact frameHeader_spec hheader

/-- **The head and the data of a request.**  On a stream that does not break, a frame that
`next_frame` returns is the first one of its type, and the data that the reader then yields are
those of the bytes after it. -/
theorem nextFrame_then_data {before payload : List UInt8} {recv : List (Arrival UInt8)}
    (h : broken recv = false)
    (hfound : (new recv before).nextFrame wanted = (.data payload, r)) :
    ∃ rest, FirstFrame wanted (before ++ content recv) (.ok (payload, rest)) ∧
      r.readAll = parseData rest := by
  have hfinds := @nextFrame_finds wanted (new recv before)
  rw [hfound] at hfinds
  obtain ⟨hfirst, hintact, hdata, hskip⟩ := hfinds
  refine ⟨r.bytes, hfirst, ?_⟩
  rw [readAll_outcome (hintact fun _ => h)]
  exact outcome_between (hdata ▸ Nat.lt_irrefl 0) (hskip ▸ Nat.lt_irrefl 0)

end FrameReader

end WarrenGuard.Masque

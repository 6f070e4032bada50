/-
The verdict on a CONNECT head and the pieces it arrives in (`read_head` of
`warrenguard-connect-proxy/src/serve.rs`).

`read_head` parses what it has before each read, and gives up after a read that takes the buffer
over the bound.  A read may bring the end of the head and, behind it, what takes the buffer over
the bound: the head is then refused as too large, though it is not.

* `verdict_whole` — where that cannot be, every way of cutting a stream has one verdict;
  `verdict_cut` — where it can, cutting before the last byte of the head has another;
* `head_verdict_iff` — so the verdict depends on the bytes alone for exactly these streams
  (`head_verdict_differs` is one where it does not).
-/
import WarrenGuard.ConnectProxy

namespace WarrenGuard.ConnectProxy

open SegmentedStream

/-- A stream whose head ends within the bound is within the bound as a whole, or the head ends
so early that no read that brings its end exceeds the bound. -/
def Segmentable (bytes : List UInt8) : Prop :=
  ∀ stop, findHeadEnd bytes = some stop → stop ≤ maxHeadBytes →
    bytes.length ≤ maxHeadBytes ∨ stop + 4 + (chunkLen - 1) ≤ maxHeadBytes

/-! ### What the parser says of a first part -/

variable {enc : DataEncoding}

section Parts

variable {buf more : List UInt8} {stop : ℕ}

theorem parseConnectHead_front (h : findHeadEnd (buf ++ more) = some stop)
    (hlen : stop + 4 ≤ buf.length) :
    parseConnectHead enc buf = parseConnectHead enc (buf ++ more) := by
  have hfront : findHeadEnd buf = some stop := position_of_append h hlen
  unfold parseConnectHead
  rw [h, hfront]
  dsimp only
  rw [List.take_append_of_le_length (by omega)]

theorem lt_of_findHeadEnd_none (h : findHeadEnd (buf ++ more) = some stop)
    (hnone : findHeadEnd buf = none) : buf.length < stop + 4 := by
  rcases Nat.lt_or_ge buf.length (stop + 4) with hlt | hge
  · exact hlt
  · have hfront : findHeadEnd buf = some stop := position_of_append h hge
    rw [hnone] at hfront
    cases hfront

theorem findHeadEnd_none_of_lt (h : findHeadEnd (buf ++ more) = some stop)
    (hlt : buf.length < stop + 4) : findHeadEnd buf = none := by
  cases hfound : findHeadEnd buf with
  | none => rfl
  | some early =>
    have hsame := (position_append hfound more).symm.trans h
    have hle : early + 4 ≤ buf.length := position_add_le hfound
    cases hsame
    omega

end Parts

/-! ### Refusals for size -/

theorem bind_ne {α β : Type} {x : Except HeadError α} {f : α → Except HeadError β} {e : HeadError}
    (hx : x ≠ .error e) (hf : ∀ a, f a ≠ .error e) : (x >>= f) ≠ .error e := by
  cases x with
  | error e' =>
    intro h
    cases h
    exact hx rfl
  | ok a => exact hf a

theorem parseProxyAuthorization_ne (value : List UInt8) :
    parseProxyAuthorization enc value ≠ .error .tooLarge := by
  unfold parseProxyAuthorization
  split
  · nofun
  split
  · nofun
  split
  · nofun
  split
  · nofun
  split <;> nofun

theorem parseHeaders_ne (credential : Option ProxyCredential) (lines : List (List UInt8)) :
    parseHeaders enc credential lines ≠ .error .tooLarge := by
  induction lines generalizing credential with
  | nil => nofun
  | cons line lines ih =>
    rw [parseHeaders]
    split
    · exact ih credential
    split
    · nofun
    split
    · exact ih credential
    split
    · nofun
    · exact bind_ne (parseProxyAuthorization_ne _) fun parsed => ih (some parsed)

theorem authority_parse_ne (raw : List UInt8) : Authority.parse raw ≠ .error .tooLarge := by
  unfold Authority.parse
  split
  · nofun
  split
  · split
    · nofun
    split <;> nofun
  · nofun

/-- **Only its size makes a head too large**, nothing in it. -/
theorem parseHeadText_ne (text : List UInt8) : parseHeadText enc text ≠ .error .tooLarge := by
  unfold parseHeadText
  split
  · nofun
  split
  · nofun
  split
  · split
    · nofun
    split
    · nofun
    · exact bind_ne (parseHeaders_ne _ _) fun credential =>
        bind_ne (authority_parse_ne _) fun target => nofun
  · nofun

theorem parseConnectHead_ne_tooLarge (enc : DataEncoding) {buf : List UInt8} {stop : ℕ}
    (h : findHeadEnd buf = some stop) (hmax : stop ≤ maxHeadBytes) :
    parseConnectHead enc buf ≠ .error .tooLarge := by
  unfold parseConnectHead
  rw [h]
  dsimp only
  rw [if_neg (Nat.not_lt.mpr hmax)]
  exact bind_ne (parseHeadText_ne _) fun parsed => nofun

/-! ### The reader -/

section Reader

variable {buf more : List UInt8} {stream : List (Arrival UInt8)} {stop : ℕ}

theorem parseConnectHead_of_none (enc : DataEncoding) (h : findHeadEnd buf = none) :
    parseConnectHead enc buf
      = if maxHeadBytes < buf.length then .error .tooLarge else .ok none := by
  unfold parseConnectHead
  rw [h]

theorem findHeadEnd_of_incomplete (h : parseConnectHead enc buf = .ok none) :
    findHeadEnd buf = none := by
  cases hfound : findHeadEnd buf with
  | none => rfl
  | some stop =>
    unfold parseConnectHead at h
    rw [hfound] at h
    dsimp only at h
    split at h
    · cases h
    · cases htext : parseHeadText enc (buf.take stop) with
      | error e =>
        rw [htext] at h
        cases h
      | ok parsed =>
        rw [htext] at h
        cases h

theorem readHead_of_closed (h : parseConnectHead enc buf = .ok none)
    (hread : (read chunkLen stream).1 = .closed) :
    (readHead enc buf stream).1 = .refused .closed := by
  rw [readHead, h]
  dsimp only
  split
  · rename_i hother
    rw [hother] at hread
    cases hread
  · rename_i hother
    rw [hother] at hread
    cases hread
  · rfl
  · rename_i hother
    rw [hother] at hread
    cases hread

/-- A stream that exceeds the bound is too large as a whole, if the reader can find it so before
it has the end of the head. -/
theorem whole_tooLarge (hcond : Segmentable (buf ++ more)) (hnone : findHeadEnd buf = none)
    (hnear : maxHeadBytes < buf.length + chunkLen) (hlong : maxHeadBytes < (buf ++ more).length) :
    parseConnectHead enc (buf ++ more) = .error .tooLarge := by
  cases hfound : findHeadEnd (buf ++ more) with
  | none => rw [parseConnectHead_of_none enc hfound, if_pos hlong]
  | some stop =>
    rcases Nat.lt_or_ge maxHeadBytes stop with hlt | hge
    · unfold parseConnectHead
      rw [hfound]
      exact if_pos hlt
    · -- the end of the head is within the bound, and then so is all that brings it
      have hbuf := lt_of_findHeadEnd_none hfound hnone
      rcases hcond stop hfound hge with hshort | hearly
      · omega
      · unfold chunkLen at hnear hearly
        omega

/-- **In whatever pieces it comes**, a stream has the verdict it has in one piece. -/
theorem verdict_whole (hsteady : Steady stream) (hcond : Segmentable (buf ++ content stream)) :
    (readHead enc buf stream).1 = (readHead enc (buf ++ content stream) []).1 := by
  induction hn : weight stream using Nat.strongRecOn generalizing buf stream with
  | _ n ih =>
    cases hparse : parseConnectHead enc buf with
    | error e =>
      have hwhole : parseConnectHead enc (buf ++ content stream) = .error e := by
        cases hfound : findHeadEnd buf with
        | some stop =>
          have hlen : stop + 4 ≤ buf.length := position_add_le hfound
          rw [← parseConnectHead_front (position_append hfound _) hlen, hparse]
        | none =>
          rw [parseConnectHead_of_none enc hfound] at hparse
          split at hparse
          · rename_i hlong
            cases hparse
            refine whole_tooLarge hcond hfound (by omega) ?_
            rw [List.length_append]
            omega
          · cases hparse
      rw [readHead_of_error hparse, readHead_of_error hwhole]
    | ok found =>
      cases found with
      | some head =>
        rw [readHead_of_head hparse, readHead_of_head (parseConnectHead_append hparse _)]
      | none =>
        rcases hsteady.read_cases chunkLen with
          ⟨hclosed, hend⟩ | ⟨chunk, rest, hread, hchunk, hrest⟩
        · rw [hend, List.append_nil, readHead_of_closed hparse hclosed,
            readHead_of_closed hparse rfl]
        · obtain ⟨hcontent, -, hweight⟩ := read_content (by decide) hread
          rw [readHead_of_bytes hparse hread, hcontent, ← List.append_assoc]
          rw [hcontent] at hcond
          split
          · rename_i hlong
            rw [List.length_append] at hlong
            have hwhole : parseConnectHead enc (buf ++ (chunk ++ content rest))
                = .error .tooLarge := by
              refine whole_tooLarge hcond (findHeadEnd_of_incomplete hparse) (by omega) ?_
              rw [List.length_append, List.length_append]
              omega
            rw [List.append_assoc, readHead_of_error hwhole]
          · rw [← List.append_assoc] at hcond
            exact ih (weight rest) (hn ▸ hweight) hrest hcond rfl

/-- **Cut before the last byte of the head**, a stream that is not segmentable is refused as too
large; in one piece it is not. -/
theorem verdict_cut (enc : DataEncoding) {bytes : List UInt8} (h : findHeadEnd bytes = some stop)
    (hmax : stop ≤ maxHeadBytes) (hlong : maxHeadBytes < bytes.length)
    (hlate : maxHeadBytes < stop + 4 + (chunkLen - 1)) :
    (readHead enc (bytes.take (stop + 3)) [.data (bytes.drop (stop + 3))]).1
        = .refused (.head .tooLarge) ∧
      (readHead enc bytes []).1 ≠ .refused (.head .tooLarge) := by
  have hle : stop + 4 ≤ bytes.length := position_add_le h
  have htake : (bytes.take (stop + 3)).length = stop + 3 := by
    rw [List.length_take]
    omega
  constructor
  · have hnone : findHeadEnd (bytes.take (stop + 3)) = none := by
      rw [← List.take_append_drop (stop + 3) bytes] at h
      exact findHeadEnd_none_of_lt h (by omega)
    have hparse := parseConnectHead_of_none enc hnone
    split at hparse
    · rw [readHead_of_error hparse]
    · have hlen : (bytes.drop (stop + 3)).length = bytes.length - (stop + 3) := List.length_drop
      have hne : bytes.drop (stop + 3) ≠ [] := List.ne_nil_of_length_pos (by omega)
      obtain ⟨rest, hread⟩ := read_data hne chunkLen []
      rw [readHead_of_bytes hparse hread, if_pos]
      rw [List.length_append, htake, List.length_take, hlen]
      unfold chunkLen at hlate ⊢
      omega
  · have hne := parseConnectHead_ne_tooLarge enc h hmax
    cases hparse : parseConnectHead enc bytes with
    | error e =>
      rw [readHead_of_error hparse]
      rintro ⟨⟩
      exact hne hparse
    | ok found =>
      cases found with
      | some head =>
        rw [readHead_of_head hparse]
        nofun
      | none =>
        rw [readHead_of_closed hparse rfl]
        nofun

end Reader

/-- **The verdict and the pieces.**  For every stream of bytes: every two ways of cutting it
into a first part and reads of at most 1024 bytes, without an error and without a timeout, have
the same verdict, the same head or the same refusal, if and only if the stream is
segmentable. -/
theorem head_verdict_iff (enc : DataEncoding) (bytes : List UInt8) :
    (∀ buf buf' stream stream', Steady stream → Steady stream' → buf ++ content stream = bytes →
      buf' ++ content stream' = bytes →
      (readHead enc buf stream).1 = (readHead enc buf' stream').1) ↔
    Segmentable bytes := by
  constructor
  · intro hsame stop hstop hmax
    by_contra hcut
    obtain ⟨hlong, hlate⟩ := not_or.mp hcut
    obtain ⟨hcutVerdict, hwholeVerdict⟩ := verdict_cut enc hstop hmax (Nat.not_le.mp hlong)
      (Nat.not_le.mp hlate)
    refine hwholeVerdict (Eq.trans (hsame bytes (bytes.take (stop + 3)) []
      [.data (bytes.drop (stop + 3))] nofun ?_ (List.append_nil bytes) ?_) hcutVerdict)
    · intro a ha
      exact ⟨_, List.mem_singleton.mp ha⟩
    · rw [content_data, List.take_append_drop]
  · intro hcond buf buf' stream stream' hsteady hsteady' hbytes hbytes'
    rw [verdict_whole hsteady (hbytes ▸ hcond), verdict_whole hsteady' (hbytes' ▸ hcond), hbytes,
      hbytes']

/-! ### A head with data behind it -/

def requestLine : List UInt8 := ascii "CONNECT a:1 HTTP/1.1"

def longHeader : List UInt8 := 120 :: 58 :: List.replicate 8000 97

def pipelined : List UInt8 :=
  (requestLine ++ 13 :: 10 :: longHeader) ++ (ascii "\r\n\r\n" ++ List.replicate 200 0)

theorem length_longHeader : longHeader.length = 8002 := by
  rw [longHeader, List.length_cons, List.length_cons, List.length_replicate]

theorem cr_notMem_longHeader : (13 : UInt8) ∉ longHeader := by
  intro h
  rcases List.mem_cons.mp h with h | h
  · cases h
  rcases List.mem_cons.mp h with h | h
  · cases h
  · cases List.eq_of_mem_replicate h

theorem findHeadEnd_pipelined : findHeadEnd pipelined = some 8024 := by
  have hcrlf : ascii "\r\n\r\n" = [13, 10, 13, 10] := by decide
  have hline : (13 : UInt8) ∉ requestLine := by decide
  have hrest : (13 : UInt8) ∉ 10 :: longHeader := by
    intro h
    rcases List.mem_cons.mp h with h | h
    · cases h
    · exact cr_notMem_longHeader h
  have hend : position [13, 10, 13, 10] ([13, 10, 13, 10] ++ List.replicate 200 (0 : UInt8))
      = some 0 := rfl
  -- the line break behind the request line is none of the end
  have hbreak : ∀ ys, position [13, 10, 13, 10] (13 :: (10 :: longHeader ++ ys))
      = (position [13, 10, 13, 10] (10 :: longHeader ++ ys)).map (· + 1) := by
    intro ys
    rw [position, if_neg]
    intro h
    cases h
  unfold findHeadEnd pipelined
  rw [hcrlf, List.append_assoc, position_skip hline, List.cons_append, hbreak, position_skip hrest,
    hend, List.length_cons, length_longHeader]
  rfl

/-- The head has no credential, so it is the same for every decoder. -/
def noEncoding : DataEncoding := ⟨fun _ => none, fun _ => none⟩

/-- **One stream, two verdicts.**  With its last byte in a read of its own a head of 8028 bytes is
refused as too large, together with the data behind it; in one piece it is not. -/
theorem head_verdict_differs :
    (readHead noEncoding (pipelined.take 8027) [.data (pipelined.drop 8027)]).1
        = .refused (.head .tooLarge) ∧
      (readHead noEncoding pipelined []).1 ≠ .refused (.head .tooLarge) := by
  refine verdict_cut noEncoding findHeadEnd_pipelined (by decide) ?_ (by decide)
  unfold pipelined
  rw [List.length_append, List.length_append, List.length_cons, List.length_cons,
    length_longHeader, List.length_append, List.length_replicate]
  decide

end WarrenGuard.ConnectProxy

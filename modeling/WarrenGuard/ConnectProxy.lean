/-
The CONNECT proxy (`warrenguard-connect-proxy/src/serve.rs`).

`serve_connect` reads a request head, asks the policy, the admitter and the dialer in this order,
and then copies between the client and the upstream connection.  The head is read in pieces of up
to 1024 bytes, and what a piece held behind the head is never sent on.

* `serveConnect_tunnel` — what must have happened before a tunnel opens, and what it sends;
* `readHead_reads` — after some read the reader has the head, and maybe more;
* `tunnel_sends_rest` — the tunnel sends the data without what was read together with the head;
* `tunnel_delivers_stream` — so it sends the whole of the data exactly if a read ends where the
  head ends.
-/
import WarrenGuard.CheckedBytes
import WarrenGuard.ConnectHead

namespace WarrenGuard.ConnectProxy

open SegmentedStream CheckedBytes

inductive ProxyRefusal where
  | head (error : HeadError)
  | closed
  | timeout
  | egressDenied
  | challenged
  | credentialRejected
  | credentialSpent
  | upstreamUnreachable
deriving DecidableEq

inductive ProxyOutcome where
  | tunnelled (toUpstream toClient : ℕ)
  | refused (refusal : ProxyRefusal)
deriving DecidableEq

inductive Response where
  | challenge
  | established
  | refused
  | methodNotAllowed
deriving DecidableEq

def sessionTokenLen : ℕ := 354

/-- `TokenAdmission`; an admitted token comes with its serial. -/
inductive TokenAdmission where
  | admitted (serial : List UInt8)
  | reject
  | denied
  | serialInUse
deriving DecidableEq

/-- What the deployer supplies.  A dialed upstream is known by what it will send back. -/
structure Deployment where
  permits : Authority → Bool
  admitter : Octets sessionTokenLen → TokenAdmission
  dial : Authority → Option (List UInt8)

structure Client where
  stream : List (Arrival UInt8)
  writable : Bool

/-! ### The proxy -/

variable (enc : DataEncoding)

def chunkLen : ℕ := 1024

inductive HeadRead where
  | head (head : ConnectHead)
  | refused (refusal : ProxyRefusal)
  | failed

/-- `read_head`, with the stream as it leaves it. -/
def readHead (buf : List UInt8) (stream : List (Arrival UInt8)) :
    HeadRead × List (Arrival UInt8) :=
  match parseConnectHead enc buf with
  | .ok (some head) => (.head head, stream)
  | .error e => (.refused (.head e), stream)
  | .ok none =>
    match _hread : read chunkLen stream with
    | (.elapsed, rest) => (.refused .timeout, rest)
    | (.failed, rest) => (.failed, rest)
    | (.closed, rest) => (.refused .closed, rest)
    | (.bytes chunk, rest) =>
      if maxHeadBytes < (buf ++ chunk).length then (.refused (.head .tooLarge), rest)
      else readHead (buf ++ chunk) rest
termination_by weight stream
decreasing_by exact (read_content (by decide) _hread).2.2

def admitCredential (admitter : Octets sessionTokenLen → TokenAdmission)
    (credential : ProxyCredential) : TokenAdmission :=
  match enc.base64UrlNopad credential.bytes with
  | none => .reject
  | some decoded =>
    match Octets.ofList? sessionTokenLen decoded with
    | none => .reject
    | some token => admitter token

/-- How an exchange ends: the outcome unless the client's stream failed, the response, and what a
tunnel has sent on. -/
structure Served where
  outcome : Option ProxyOutcome
  response : Option Response
  upstream : Option (List UInt8)
deriving DecidableEq

/-- A refusal behind the head: if the client cannot be told, that is an error. -/
def refuse (client : Client) (response : Response) (refusal : ProxyRefusal) : Served :=
  if client.writable then ⟨some (.refused refusal), some response, none⟩ else ⟨none, none, none⟩

/-- `copy_bidirectional`, which sends on every byte it reads. -/
def copyBidirectional (stream : List (Arrival UInt8)) (back : List UInt8) : Served :=
  ⟨if broken stream then none else some (.tunnelled (content stream).length back.length),
    some .established, some (content stream)⟩

/-- `serve_connect`; `seen` is what the caller has read off the stream already. -/
def serveConnect (deployment : Deployment) (client : Client) (seen : List UInt8) : Served :=
  match readHead enc seen client.stream with
  | (.failed, _) => ⟨none, none, none⟩
  | (.refused refusal, _) =>
    let response := if refusal = .head .notConnect then .methodNotAllowed else .refused
    ⟨some (.refused refusal), if client.writable then some response else none, none⟩
  | (.head head, rest) =>
    if ¬ deployment.permits head.target then refuse client .refused .egressDenied
    else match head.credential with
      | none => refuse client .challenge .challenged
      | some credential =>
        match admitCredential enc deployment.admitter credential with
        | .reject => refuse client .challenge .credentialRejected
        | .denied | .serialInUse => refuse client .refused .credentialSpent
        | .admitted _ =>
          match deployment.dial head.target with
          | none => refuse client .refused .upstreamUnreachable
          | some back =>
            if client.writable then copyBidirectional rest back else ⟨none, none, none⟩

/-! ### Tunnels -/

/-- Everything that opens a tunnel for a head. -/
structure Admitted (deployment : Deployment) (client : Client) (head : ConnectHead) : Prop where
  permitted : deployment.permits head.target = true
  credential : ∃ credential serial, head.credential = some credential
    ∧ admitCredential enc deployment.admitter credential = .admitted serial
  dialed : ∃ back, deployment.dial head.target = some back
  writable : client.writable = true

section Tunnel

variable {enc} {deployment : Deployment} {client : Client} {seen sent : List UInt8}

theorem refuse_upstream (client : Client) (response : Response) (refusal : ProxyRefusal) :
    (refuse client response refusal).upstream = none := by
  unfold refuse
  split <;> rfl

/-- A tunnel opens only for a head that was read whole and is permitted, with a credential and an
upstream; it sends what is left of the stream. -/
theorem serveConnect_tunnel (h : (serveConnect enc deployment client seen).upstream = some sent) :
    ∃ head rest, readHead enc seen client.stream = (.head head, rest)
      ∧ Admitted enc deployment client head ∧ sent = content rest := by
  unfold serveConnect at h
  split at h
  · cases h
  · cases h
  · rename_i head rest hread
    split at h
    · rw [refuse_upstream] at h
      cases h
    rename_i hpermits
    split at h
    · rw [refuse_upstream] at h
      cases h
    rename_i credential hcredential
    split at h
    · rw [refuse_upstream] at h
      cases h
    · rw [refuse_upstream] at h
      cases h
    · rw [refuse_upstream] at h
      cases h
    rename_i serial hadmission
    split at h
    · rw [refuse_upstream] at h
      cases h
    rename_i back hdial
    split at h
    · rename_i hwritable
      cases h
      exact ⟨head, rest, hread, ⟨by simpa using hpermits,
        ⟨credential, serial, hcredential, hadmission⟩, ⟨back, hdial⟩, hwritable⟩, rfl⟩
    · cases h

theorem serveConnect_of_admitted {head : ConnectHead} {rest : List (Arrival UInt8)}
    (hread : readHead enc seen client.stream = (.head head, rest))
    (h : Admitted enc deployment client head) :
    (serveConnect enc deployment client seen).upstream = some (content rest) := by
  obtain ⟨hpermits, ⟨credential, serial, hcredential, hadmission⟩, ⟨back, hdial⟩, hwritable⟩ := h
  simp [serveConnect, hread, hpermits, hcredential, hadmission, hdial, hwritable,
    copyBidirectional]

end Tunnel

/-! ### What the reader takes -/

section Reader

variable {enc} {buf head data : List UInt8} {stream rest : List (Arrival UInt8)}
  {parsed : ConnectHead}

theorem readHead_of_head (h : parseConnectHead enc buf = .ok (some parsed)) :
    readHead enc buf stream = (.head parsed, stream) := by
  unfold readHead
  rw [h]

theorem readHead_of_error {e : HeadError} (h : parseConnectHead enc buf = .error e) :
    readHead enc buf stream = (.refused (.head e), stream) := by
  unfold readHead
  rw [h]

theorem readHead_of_bytes {chunk : List UInt8} (h : parseConnectHead enc buf = .ok none)
    (hread : read chunkLen stream = (.bytes chunk, rest)) :
    readHead enc buf stream = if maxHeadBytes < (buf ++ chunk).length
      then (.refused (.head .tooLarge), rest) else readHead enc (buf ++ chunk) rest := by
  rw [readHead, h]
  dsimp only
  split
  · rename_i hother
    cases hread.symm.trans hother
  · rename_i hother
    cases hread.symm.trans hother
  · rename_i hother
    cases hread.symm.trans hother
  · rename_i hsame
    cases hread.symm.trans hsame
    rfl

/-- **The reader has the head, and maybe more**: it stops after some read, and what it has
read by then parses. -/
theorem readHead_reads (h : readHead enc buf stream = (.head parsed, rest)) :
    ∃ n, (readTimes chunkLen n stream).2 = rest
      ∧ parseConnectHead enc (buf ++ (readTimes chunkLen n stream).1) = .ok (some parsed) := by
  fun_induction readHead enc buf stream with
  | case1 buf stream head hparse =>
    cases h
    exact ⟨0, rfl, by rwa [readTimes, List.append_nil]⟩
  | case2 | case3 | case4 | case5 | case6 => cases h
  | case7 buf stream hparse chunk rest' hread hsize ih =>
    obtain ⟨n, hrest, hparsed⟩ := ih h
    refine ⟨n + 1, ?_, ?_⟩
    · rw [readTimes, hread]
      exact hrest
    · rw [readTimes, hread, ← List.append_assoc]
      exact hparsed

variable (enc) in
def ValidHead (head : List UInt8) (parsed : ConnectHead) : Prop :=
  parseConnectHead enc head = .ok (some parsed) ∧ parsed.headLen = head.length

instance (head : List UInt8) (parsed : ConnectHead) : Decidable (ValidHead enc head parsed) :=
  inferInstanceAs (Decidable (_ ∧ _))

/-- Some read of the stream ends where the head ends. -/
def ReadBoundary (seen : List UInt8) (stream : List (Arrival UInt8)) (head : List UInt8) : Prop :=
  ∃ n, seen ++ (readTimes chunkLen n stream).1 = head

/-- **With a boundary there**, the reader stops at it, unless the head is over the bound. -/
theorem readHead_of_boundary (hvalid : ValidHead enc head parsed) {n : ℕ}
    (hn : buf ++ (readTimes chunkLen n stream).1 = head) :
    (∃ rest, readHead enc buf stream = (.head parsed, rest)
      ∧ content stream = (readTimes chunkLen n stream).1 ++ content rest
      ∧ (head.length ≤ maxHeadBytes ∨ buf = head))
    ∨ (maxHeadBytes < head.length ∧ buf ≠ head
      ∧ ∃ rest, readHead enc buf stream = (.refused (.head .tooLarge), rest)) := by
  obtain ⟨hparse, hlen⟩ := hvalid
  induction n generalizing buf stream with
  | zero =>
    rw [readTimes, List.append_nil] at hn
    subst hn
    exact .inl ⟨stream, readHead_of_head hparse, rfl, .inr rfl⟩
  | succ n ih =>
    rcases hread : read chunkLen stream with ⟨got, rest⟩
    rw [readTimes, hread] at hn ⊢
    cases got with
    | closed | failed | elapsed =>
      rw [List.append_nil] at hn
      subst hn
      exact .inl ⟨stream, readHead_of_head hparse, rfl, .inr rfl⟩
    | bytes chunk =>
      dsimp only at hn ⊢
      obtain ⟨hcontent, hne, -⟩ := read_content (by decide) hread
      have hpos := List.length_pos_iff.mpr hne
      have hlength := congrArg List.length hn
      simp only [List.length_append] at hlength
      have hneq : buf ≠ head := fun heq => by
        rw [heq] at hlength
        omega
      have hmore : parseConnectHead enc (buf ++ (chunk ++ (readTimes chunkLen n rest).1))
          = .ok (some parsed) := by
        rw [hn]
        exact hparse
      have hbuf := parseConnectHead_short hmore (by omega)
      rw [← List.append_assoc] at hn
      by_cases hover : maxHeadBytes < buf.length
      · rw [if_pos hover] at hbuf
        exact .inr ⟨by omega, hneq, stream, readHead_of_error hbuf⟩
      rw [if_neg hover] at hbuf
      rw [readHead_of_bytes hbuf hread]
      by_cases hbig : maxHeadBytes < (buf ++ chunk).length
      · rw [if_pos hbig]
        rw [List.length_append] at hbig
        exact .inr ⟨by omega, hneq, rest, rfl⟩
      rw [if_neg hbig]
      rcases ih hn with ⟨rest', hhead, hrest, hsmall⟩ | ⟨hlarge, -, hrefused⟩
      · refine .inl ⟨rest', hhead, by rw [hcontent, hrest, List.append_assoc], .inl ?_⟩
        rcases hsmall with hsmall | rfl
        · exact hsmall
        · exact Nat.le_of_not_lt hbig
      · exact .inr ⟨hlarge, hneq, hrefused⟩

end Reader

/-! ### What a tunnel sends -/

section Sent

variable {enc} {deployment : Deployment} {client : Client} {seen head data sent : List UInt8}
  {parsed : ConnectHead}

/-- **With a boundary there**, the reader stops at it: nothing is lost, and the head is within the
bound or was read beforehand. -/
theorem sent_of_boundary (hvalid : ValidHead enc head parsed)
    (hstream : seen ++ content client.stream = head ++ data)
    (hboundary : ReadBoundary seen client.stream head)
    (h : (serveConnect enc deployment client seen).upstream = some sent) :
    sent = data ∧ (head.length ≤ maxHeadBytes ∨ seen = head) := by
  obtain ⟨n, hn⟩ := hboundary
  obtain ⟨head', rest', hread', -, rfl⟩ := serveConnect_tunnel h
  rcases readHead_of_boundary hvalid hn with ⟨rest, hread, hcontent, hsize⟩ | ⟨-, -, rest, hread⟩
  · cases hread.symm.trans hread'
    rw [hcontent, ← List.append_assoc, hn] at hstream
    exact ⟨List.append_cancel_left hstream, hsize⟩
  · cases hread.symm.trans hread'

/-- **What is sent, and what is lost**: the reader has taken the head and some bytes behind it, and
the tunnel sends the others in their order. -/
theorem tunnel_sends_rest (hvalid : ValidHead enc head parsed)
    (hstream : seen ++ content client.stream = head ++ data)
    (h : (serveConnect enc deployment client seen).upstream = some sent) :
    ∃ lost, data = lost ++ sent ∧ (lost = [] → ReadBoundary seen client.stream head) := by
  obtain ⟨head', rest, hread, -, hsent⟩ := serveConnect_tunnel h
  obtain ⟨n, hrest, hparse⟩ := readHead_reads hread
  have hcontent := content_readTimes (show 0 < chunkLen by decide) n client.stream
  rw [hrest, ← hsent] at hcontent
  generalize htaken : (readTimes chunkLen n client.stream).1 = taken at hcontent hparse
  rw [hcontent, ← List.append_assoc] at hstream
  have hlong : ∃ lost, seen ++ taken = head ++ lost ∧ data = lost ++ sent := by
    rcases List.append_eq_append_iff.mp hstream with ⟨more, hhead, hsame⟩ | hlost
    · -- what parses is no shorter than the head
      have hshort : ¬ (seen ++ taken).length < parsed.headLen := fun hshort => by
        rw [hhead] at hvalid
        have hnone := parseConnectHead_short hvalid.1 hshort
        rw [hparse] at hnone
        split at hnone <;> cases hnone
      have hmore : more = [] := by
        have hlength := congrArg List.length hhead
        rw [List.length_append] at hlength
        rw [hvalid.2] at hshort
        exact List.length_eq_zero_iff.mp (by omega)
      subst hmore
      exact ⟨[], by simpa using hhead.symm, by simpa using hsame.symm⟩
    · exact hlost
  obtain ⟨lost, hlost, hdata⟩ := hlong
  refine ⟨lost, hdata, fun hnone => ⟨n, ?_⟩⟩
  rw [htaken, hlost, hnone, List.append_nil]

/-- **What a tunnel delivers.**  Whatever a tunnel sends, it is exactly the data if and only if a
read ends where the head ends; and for an admitted head the tunnel opens and sends exactly the
data if and only if there is such a read and the head is within the bound or was read
beforehand. -/
theorem tunnel_delivers_stream (enc : DataEncoding) (deployment : Deployment) (client : Client)
    {seen head data : List UInt8} {parsed : ConnectHead} (hvalid : ValidHead enc head parsed)
    (hstream : seen ++ content client.stream = head ++ data) :
    (∀ sent, (serveConnect enc deployment client seen).upstream = some sent →
      (sent = data ↔ ReadBoundary seen client.stream head))
    ∧ (Admitted enc deployment client parsed →
      ((serveConnect enc deployment client seen).upstream = some data
        ↔ ReadBoundary seen client.stream head
          ∧ (head.length ≤ maxHeadBytes ∨ seen = head))) := by
  have hexact : ∀ sent, (serveConnect enc deployment client seen).upstream = some sent →
      (sent = data ↔ ReadBoundary seen client.stream head) := by
    intro sent hsent
    refine ⟨fun hall => ?_, fun hboundary => (sent_of_boundary hvalid hstream hboundary hsent).1⟩
    obtain ⟨lost, hlost, hboundary⟩ := tunnel_sends_rest hvalid hstream hsent
    rw [hall] at hlost
    exact hboundary (List.self_eq_append_left.mp hlost)
  refine ⟨hexact, fun hadmitted => ⟨fun hopen => ?_, ?_⟩⟩
  · have hboundary := (hexact data hopen).mp rfl
    exact ⟨hboundary, (sent_of_boundary hvalid hstream hboundary hopen).2⟩
  · rintro ⟨hboundary, hsize⟩
    obtain ⟨n, hn⟩ := id hboundary
    rcases readHead_of_boundary hvalid hn with ⟨rest, hread, -⟩ | ⟨hlarge, hneq, -⟩
    · have hopen := serveConnect_of_admitted hread hadmitted
      rw [hopen, (hexact _ hopen).mpr hboundary]
    · rcases hsize with hsmall | hseen
      · omega
      · exact absurd hseen hneq

end Sent

/-- `warren:` and the token in its text form, encoded: what is handed to the first decoder. -/
def requestCredential : List UInt8 :=
  ascii "d2FycmVuOkFB" ++ (List.replicate 156 (ascii "QUFB")).flatten ++ ascii "QUE="

def requestHead : List UInt8 :=
  ascii "CONNECT a:443 HTTP/1.1\r\nProxy-Authorization: Basic " ++ requestCredential
    ++ ascii "\r\n\r\n"

/-- The decoders as they are on the two texts of the request: the credential, and 472 times `A` for
a token of zeros. -/
def requestEncoding : DataEncoding where
  base64 text :=
    if text = requestCredential then some (ascii "warren:" ++ List.replicate 472 65) else none
  base64UrlNopad text :=
    if text = List.replicate 472 65 then some (List.replicate sessionTokenLen 0) else none

def requestParsed : ConnectHead :=
  ⟨⟨ascii "a", 443, by decide +kernel, by decide⟩, some ⟨List.replicate 472 65⟩, requestHead.length⟩

def openDeployment : Deployment :=
  ⟨fun _ => true, fun _ => .admitted (List.replicate 32 0), fun _ => some []⟩

theorem requestHead_valid : ValidHead requestEncoding requestHead requestParsed := by
  decide +kernel

theorem tunnel_delivers_stream_separate :
    ValidHead requestEncoding requestHead requestParsed
      ∧ (serveConnect requestEncoding openDeployment
          ⟨[.data requestHead, .data [1, 2, 3]], true⟩ []).upstream = some [1, 2, 3] := by
  have hstream : [] ++ content [.data requestHead, .data [1, 2, 3]] = requestHead ++ [1, 2, 3] := by
    decide +kernel
  have hboundary : ReadBoundary [] [.data requestHead, .data [1, 2, 3]] requestHead :=
    ⟨1, by decide +kernel⟩
  have hadmitted : Admitted requestEncoding openDeployment
      ⟨[.data requestHead, .data [1, 2, 3]], true⟩ requestParsed :=
    ⟨rfl, ⟨_, List.replicate 32 0, rfl, by decide +kernel⟩, ⟨[], rfl⟩, rfl⟩
  have hiff := (tunnel_delivers_stream requestEncoding openDeployment
    ⟨[.data requestHead, .data [1, 2, 3]], true⟩ requestHead_valid hstream).2 hadmitted
  exact ⟨requestHead_valid, hiff.mpr ⟨hboundary, .inl (by decide +kernel)⟩⟩

/-- Head and data in one read: the tunnel opens, and sends nothing of the data. -/
theorem early_data_lost :
    ValidHead requestEncoding requestHead requestParsed
      ∧ content [.data (requestHead ++ [1, 2, 3])] = requestHead ++ [1, 2, 3]
      ∧ serveConnect requestEncoding openDeployment
          ⟨[.data (requestHead ++ [1, 2, 3])], true⟩ []
        = ⟨some (.tunnelled 0 0), some .established, some []⟩ := by
  refine ⟨requestHead_valid, ?_, ?_⟩
  · decide +kernel
  · decide +kernel

end WarrenGuard.ConnectProxy

/-
The NAT-PMP frames (`warrenguard-natpmp-protocol/src/lib.rs`).

Behind their fixed layouts requests and responses may have a trailer: the budget of the rate limit,
told by the length of a response, and a credential, told by a magic number and its own length.

* `parseRequest_serializeRequest` — a request is read back, whatever stands behind it;
* `credentialTrailer_append` — what is read behind a mapping request, from a trailer whose
  credential may be cut;
* `frames_read_back` — the codec as a whole.
-/
import WarrenGuard.ByteString
import WarrenGuard.RefreshLoop

namespace WarrenGuard.NatPmpWire

open ByteString
open NatPmp (Proto ResultCode)
open NatPmpClient (RateLimitInfo)

def natpmpVersion : UInt8 := 0

def responseBit : UInt8 := 0x80

def mapRequestLen : ℕ := 12

def credentialTrailerMagic : ℕ := 0x5747

def maxCredentialLen : ℕ := 512

def credentialTrailerHeaderLen : ℕ := 4

inductive ParseError where
  | tooShort (got need : ℕ)
  | unsupportedVersion (version : UInt8)
  | unsupportedOpcode (opcode : UInt8)

inductive TrailerError where
  | credentialTooLong (len max : ℕ)

inductive Request where
  | externalAddress
  | map (proto : Proto) (internalPort suggestedExternalPort : UInt16) (lifetimeSecs : UInt32)

inductive Response where
  | externalAddress (resultCode : ResultCode) (epochSecs externalIp : UInt32)
  | map (proto : Proto) (resultCode : ResultCode) (epochSecs : UInt32)
      (internalPort externalPort : UInt16) (lifetimeSecs : UInt32)
      (rateLimit : Option RateLimitInfo)

def opcode : Proto → UInt8
  | .udp => 1
  | .tcp => 2

/-- The number of a result code on the wire. -/
def resultNumber : ResultCode → ℕ
  | .success => 0
  | .unsupportedVersion => 1
  | .notAuthorized => 2
  | .networkFailure => 3
  | .outOfResources => 4
  | .unsupportedOpcode => 5
  | .suggestedPortUnavailable => 6
  | .rateLimited => 7

def parseResultCode : ℕ → ResultCode
  | 0 => .success
  | 1 => .unsupportedVersion
  | 2 => .notAuthorized
  | 3 => .networkFailure
  | 4 => .outOfResources
  | 5 => .unsupportedOpcode
  | 6 => .suggestedPortUnavailable
  | 7 => .rateLimited
  | _ => .networkFailure

/-- `u16::from_be_bytes` of the bytes from `i` on. -/
def u16At (buf : List UInt8) (i : ℕ) : UInt16 := .ofNat (beNat (slice buf i 2))

/-- `u32::from_be_bytes` of the bytes from `i` on. -/
def u32At (buf : List UInt8) (i : ℕ) : UInt32 := .ofNat (beNat (slice buf i 4))

def serializeRequest : Request → List UInt8
  | .externalAddress => [natpmpVersion, 0]
  | .map proto internalPort suggestedExternalPort lifetimeSecs =>
    [natpmpVersion, opcode proto, 0, 0] ++ be16 internalPort.toNat ++
      be16 suggestedExternalPort.toNat ++ be32 lifetimeSecs.toNat

def parseRequest (buf : List UInt8) : Except ParseError Request :=
  if buf.length < 2 then .error (.tooShort buf.length 2)
  else if byte buf 0 ≠ natpmpVersion then .error (.unsupportedVersion (byte buf 0))
  else if byte buf 1 = 0 then .ok .externalAddress
  else if byte buf 1 = 1 ∨ byte buf 1 = 2 then
    if buf.length < 12 then .error (.tooShort buf.length 12)
    else
      -- bytes 2 and 3 are reserved and not looked at
      .ok (.map (if byte buf 1 = 1 then .udp else .tcp) (u16At buf 4) (u16At buf 6) (u32At buf 8))
  else .error (.unsupportedOpcode (byte buf 1))

def serializeResponse : Response → List UInt8
  | .externalAddress resultCode epochSecs externalIp =>
    [natpmpVersion, 0 ||| responseBit] ++ be16 (resultNumber resultCode) ++
      be32 epochSecs.toNat ++ be32 externalIp.toNat
  | .map proto resultCode epochSecs internalPort externalPort lifetimeSecs rateLimit =>
    [natpmpVersion, opcode proto ||| responseBit] ++ be16 (resultNumber resultCode) ++
      be32 epochSecs.toNat ++ be16 internalPort.toNat ++ be16 externalPort.toNat ++
      be32 lifetimeSecs.toNat ++
      match rateLimit with
      | some info => [info.attemptsRemaining, 0] ++ be16 info.windowResetSecs.toNat
      | none => []

/-- `parse_response` once the header is checked, by the opcode without the response bit. -/
def parseResponseBody (opcode : UInt8) (buf : List UInt8) : Except ParseError Response :=
  let resultCode := parseResultCode (beNat (slice buf 2 2))
  if opcode = 0 then
    if buf.length < 12 then .error (.tooShort buf.length 12)
    else .ok (.externalAddress resultCode (u32At buf 4) (u32At buf 8))
  else if opcode = 1 ∨ opcode = 2 then
    if buf.length < 16 then .error (.tooShort buf.length 16)
    else
      .ok (.map (if opcode = 1 then .udp else .tcp) resultCode (u32At buf 4) (u16At buf 8)
        (u16At buf 10) (u32At buf 12)
        (if 20 ≤ buf.length then some ⟨byte buf 16, u16At buf 18⟩ else none))
  else .error (.unsupportedOpcode opcode)

def parseResponse (buf : List UInt8) : Except ParseError Response :=
  if buf.length < 8 then .error (.tooShort buf.length 8)
  else if byte buf 0 ≠ natpmpVersion then .error (.unsupportedVersion (byte buf 0))
  else if byte buf 1 &&& responseBit = 0 then .error (.unsupportedOpcode (byte buf 1))
  else parseResponseBody (byte buf 1 &&& ~~~responseBit) buf

/-- `append_credential_trailer`: what it returns, and the frame as it leaves it. -/
def appendCredentialTrailer (frame credential : List UInt8) :
    Except TrailerError Unit × List UInt8 :=
  if maxCredentialLen < credential.length then
    (.error (.credentialTooLong credential.length maxCredentialLen), frame)
  else
    (.ok (), frame ++ (be16 credentialTrailerMagic ++ (be16 credential.length ++ credential)))

def credentialTrailer (buf : List UInt8) : Option (List UInt8) :=
  if buf.length < mapRequestLen then none
  else
    let trailer := buf.drop mapRequestLen
    if trailer.length < credentialTrailerHeaderLen then none
    else
      let body := trailer.drop credentialTrailerHeaderLen
      let len := beNat (slice trailer 2 2)
      if beNat (slice trailer 0 2) ≠ credentialTrailerMagic then none
      else if maxCredentialLen < len then none
      else if body.length < len then none
      else some (body.take len)

/-! ### Fields -/

theorem ofNat_beNat_be16 (x : UInt16) : UInt16.ofNat (beNat (be16 x.toNat)) = x := by
  rw [beNat_be16 x.toNat_lt, UInt16.ofNat_toNat]

theorem ofNat_beNat_be32 (x : UInt32) : UInt32.ofNat (beNat (be32 x.toNat)) = x := by
  rw [beNat_be32 x.toNat_lt, UInt32.ofNat_toNat]

theorem parseResultCode_be16 (code : ResultCode) :
    parseResultCode (beNat (be16 (resultNumber code))) = code := by
  cases code <;> rfl

/-! ### Round trips -/

/-- **A request is read back**, whatever stands behind it. -/
theorem parseRequest_serializeRequest (req : Request) (rest : List UInt8) :
    parseRequest (serializeRequest req ++ rest) = .ok req := by
  cases req with
  | externalAddress => rfl
  | map proto internalPort suggestedExternalPort lifetimeSecs =>
    have hread : parseRequest
        (serializeRequest (.map proto internalPort suggestedExternalPort lifetimeSecs) ++ rest)
        = .ok (.map proto (.ofNat (beNat (be16 internalPort.toNat)))
            (.ofNat (beNat (be16 suggestedExternalPort.toNat)))
            (.ofNat (beNat (be32 lifetimeSecs.toNat)))) := by
      cases proto <;> rfl
    rw [hread, ofNat_beNat_be16, ofNat_beNat_be16, ofNat_beNat_be32]

/-- The header of a response is accepted, and its opcode found. -/
theorem parseResponse_eq {op : UInt8} (hop : op < 3) {fields : List UInt8}
    (hlen : 6 ≤ fields.length) :
    parseResponse (natpmpVersion :: (op ||| responseBit) :: fields)
      = parseResponseBody op (natpmpVersion :: (op ||| responseBit) :: fields) := by
  have hbit : ∀ op : Fin 3, (UInt8.ofNat op ||| responseBit) &&& responseBit ≠ 0 ∧
      (UInt8.ofNat op ||| responseBit) &&& ~~~responseBit = UInt8.ofNat op := by decide
  have hop' := hbit ⟨op.toNat, UInt8.lt_iff_toNat_lt.mp hop⟩
  rw [UInt8.ofNat_toNat] at hop'
  have hlong : ¬ (natpmpVersion :: (op ||| responseBit) :: fields).length < 8 := by
    rw [List.length_cons, List.length_cons]
    omega
  rw [parseResponse, if_neg hlong]
  refine (if_neg (not_not.mpr rfl)).trans ?_
  exact (if_neg hop'.1).trans (congrArg (parseResponseBody · _) hop'.2)

theorem parseResponse_serializeResponse (resp : Response) :
    parseResponse (serializeResponse resp) = .ok resp := by
  cases resp with
  | externalAddress resultCode epochSecs externalIp =>
    have hlen : 6 ≤ (be16 (resultNumber resultCode) ++ be32 epochSecs.toNat ++
      be32 externalIp.toNat).length := Nat.le_add_left 6 4
    refine (parseResponse_eq (by decide) hlen).trans ?_
    show Except.ok (Response.externalAddress (parseResultCode (beNat (be16 _)))
      (.ofNat (beNat (be32 _))) (.ofNat (beNat (be32 _)))) = _
    rw [parseResultCode_be16, ofNat_beNat_be32, ofNat_beNat_be32]
  | map proto resultCode epochSecs internalPort externalPort lifetimeSecs rateLimit =>
    refine (parseResponse_eq (by cases proto <;> decide) (Nat.le_add_left 6 _)).trans ?_
    have hbody : parseResponseBody (opcode proto) (serializeResponse
        (.map proto resultCode epochSecs internalPort externalPort lifetimeSecs rateLimit))
        = .ok (.map proto (parseResultCode (beNat (be16 (resultNumber resultCode))))
            (.ofNat (beNat (be32 epochSecs.toNat))) (.ofNat (beNat (be16 internalPort.toNat)))
            (.ofNat (beNat (be16 externalPort.toNat))) (.ofNat (beNat (be32 lifetimeSecs.toNat)))
            (rateLimit.map fun info => ⟨info.1, .ofNat (beNat (be16 info.2.toNat))⟩)) := by
      -- the length of the frame tells whether there is a trailer
      cases proto <;> cases rateLimit <;> rfl
    refine hbody.trans ?_
    simp only [parseResultCode_be16, ofNat_beNat_be32, ofNat_beNat_be16, Option.map_id']

/-! ### Credentials -/

/-- **The trailer behind a mapping request**, whose body may have been cut. -/
theorem credentialTrailer_append {head body : List UInt8} {len : ℕ}
    (hhead : head.length = mapRequestLen) (hlen : len ≤ maxCredentialLen) :
    credentialTrailer (head ++ (be16 credentialTrailerMagic ++ (be16 len ++ body)))
      = if body.length < len then none else some (body.take len) := by
  have hlt : len < 65536 := Nat.lt_of_le_of_lt hlen (by decide)
  have hbound : ¬ (head ++ (be16 credentialTrailerMagic ++ (be16 len ++ body))).length
      < mapRequestLen := by
    rw [List.length_append, hhead]
    omega
  have hheader : ¬ (be16 credentialTrailerMagic ++ (be16 len ++ body)).length
      < credentialTrailerHeaderLen := by
    simp only [be16, credentialTrailerHeaderLen, List.length_append, List.length_cons]
    omega
  have hfield : slice (be16 credentialTrailerMagic ++ (be16 len ++ body)) 2 2 = be16 len := rfl
  have hmagic : beNat (slice (be16 credentialTrailerMagic ++ (be16 len ++ body)) 0 2)
      = credentialTrailerMagic := rfl
  rw [credentialTrailer, if_neg hbound, List.drop_left' hhead]
  dsimp only
  rw [if_neg hheader, hmagic, if_neg (not_not.mpr rfl), hfield, beNat_be16 hlt,
    if_neg (Nat.not_lt.mpr hlen)]
  rfl

theorem credentialTrailer_short {buf : List UInt8}
    (h : buf.length < mapRequestLen + credentialTrailerHeaderLen) :
    credentialTrailer buf = none := by
  unfold credentialTrailer
  split_ifs with hbound
  · rfl
  · have htrailer : (buf.drop mapRequestLen).length < credentialTrailerHeaderLen := by
      rw [List.length_drop]
      omega
    exact if_pos htrailer

/-- **A cut frame presents no credential.** -/
theorem credentialTrailer_cut {head credential : List UInt8} (hhead : head.length = mapRequestLen)
    (hlen : credential.length ≤ maxCredentialLen) {cut : List UInt8}
    (hcut : cut <+: head ++ (be16 credentialTrailerMagic ++ (be16 credential.length ++ credential)))
    (hne : cut.length < mapRequestLen + credentialTrailerHeaderLen + credential.length) :
    credentialTrailer cut = none := by
  rcases Nat.lt_or_ge cut.length (mapRequestLen + credentialTrailerHeaderLen) with hshort | hlong
  · exact credentialTrailer_short hshort
  -- the header of the trailer is whole, and the credential is cut
  have hfront : head ++ (be16 credentialTrailerMagic ++ be16 credential.length) <+: cut := by
    refine List.prefix_of_prefix_length_le ⟨credential, ?_⟩ hcut ?_
    · simp only [List.append_assoc]
    · simpa [hhead, be16, credentialTrailerHeaderLen] using hlong
  obtain ⟨body, rfl⟩ := hfront
  rw [List.append_assoc, List.append_assoc, credentialTrailer_append hhead hlen, if_pos]
  simp only [List.length_append, hhead, be16, List.length_cons, List.length_nil] at hne
  unfold credentialTrailerHeaderLen at hne
  omega

/-- **Frames are read back.**  Parsing is a left inverse of serializing, for requests and responses.
A credential of at most 512 bytes can be appended to every mapping request: it is then found as it
is, the request is still read, and no frame that was cut presents a credential.  An append that is
refused leaves the frame alone. -/
theorem frames_read_back :
    (∀ req, parseRequest (serializeRequest req) = .ok req) ∧
    (∀ resp, parseResponse (serializeResponse resp) = .ok resp) ∧
    (∀ proto internalPort suggested lifetimeSecs (credential : List UInt8),
      credential.length ≤ 512 → ∃ frame,
        appendCredentialTrailer
          (serializeRequest (.map proto internalPort suggested lifetimeSecs)) credential
          = (.ok (), frame) ∧
        credentialTrailer frame = some credential ∧
        parseRequest frame = .ok (.map proto internalPort suggested lifetimeSecs) ∧
        ∀ cut, cut <+: frame → cut ≠ frame → credentialTrailer cut = none) ∧
    ∀ frame credential e frame', appendCredentialTrailer frame credential = (.error e, frame') →
      frame' = frame := by
  refine ⟨fun req => ?_, parseResponse_serializeResponse, ?_, ?_⟩
  · simpa using parseRequest_serializeRequest req []
  · intro proto internalPort suggested lifetimeSecs credential (hlen : _ ≤ maxCredentialLen)
    have hhead : (serializeRequest (.map proto internalPort suggested lifetimeSecs)).length
        = mapRequestLen := rfl
    refine ⟨_, by rw [appendCredentialTrailer, if_neg (Nat.not_lt.mpr hlen)], ?_,
      parseRequest_serializeRequest _ _, fun cut hcut hne => ?_⟩
    · rw [credentialTrailer_append hhead hlen, if_neg (Nat.lt_irrefl _), List.take_length]
    · refine credentialTrailer_cut hhead hlen hcut ?_
      have hlt := Nat.lt_of_le_of_ne hcut.length_le fun heq => hne (hcut.eq_of_length heq)
      simp only [List.length_append, hhead, be16, List.length_cons, List.length_nil] at hlt
      unfold credentialTrailerHeaderLen
      omega
  · intro frame credential e frame' h
    unfold appendCredentialTrailer at h
    split_ifs at h
    · cases h
      rfl
    · cases h

theorem frames_read_back_short : ∃ frame,
    appendCredentialTrailer (serializeRequest (.map .udp 1 2 3)) [4, 5] = (.ok (), frame) ∧
    credentialTrailer frame = some [4, 5] ∧ parseRequest frame = .ok (.map .udp 1 2 3) ∧
    ∀ cut, cut <+: frame → cut ≠ frame → credentialTrailer cut = none :=
  frames_read_back.2.2.1 .udp 1 2 3 [4, 5] (by decide)

end WarrenGuard.NatPmpWire

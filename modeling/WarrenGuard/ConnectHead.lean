/-
The head of a CONNECT request (`warrenguard-connect-proxy/src/head.rs`).

The head is parsed from the bytes that have arrived so far, all over again after each read, so two
facts about the parser carry every argument about the reader:

* `parseConnectHead_append` — an accepted head is accepted as the same head when more follows;
* `parseConnectHead_short` — nothing shorter than a head is accepted.

An `Authority` is a host and a port that passed their checks, and cannot be built otherwise.
-/
import WarrenGuard.SegmentedStream

namespace WarrenGuard.ConnectProxy

open SegmentedStream

def maxHeadBytes : ℕ := 8 * 1024

inductive HeadError where
  | tooLarge
  | malformedRequestLine
  | notConnect
  | unsupportedVersion
  | malformedAuthority
  | malformedHeader
  | duplicateCredential
  | unsupportedAuthScheme
  | malformedCredential
deriving DecidableEq

/-! ### Text as bytes -/

def ascii (s : String) : List UInt8 := s.toList.map fun c => UInt8.ofNat c.toNat

def isContinuation (b : UInt8) : Bool := decide (0x80 ≤ b ∧ b ≤ 0xbf)

/-- The bytes that may follow the first of a character of three or four bytes: no overlong
forms, no surrogates, nothing behind the last code point. -/
def isSecondOf (first b : UInt8) : Bool :=
  if first = 0xe0 then decide (0xa0 ≤ b ∧ b ≤ 0xbf)
  else if first = 0xed then decide (0x80 ≤ b ∧ b ≤ 0x9f)
  else if first = 0xf0 then decide (0x90 ≤ b ∧ b ≤ 0xbf)
  else if first = 0xf4 then decide (0x80 ≤ b ∧ b ≤ 0x8f)
  else isContinuation b

/-- `core::str::from_utf8` accepts the bytes. -/
def isUtf8 : List UInt8 → Bool
  | [] => true
  | a :: rest =>
    if a < 0x80 then isUtf8 rest
    else match rest with
      | [] => false
      | b :: rest =>
        if 0xc2 ≤ a ∧ a ≤ 0xdf then isContinuation b && isUtf8 rest
        else match rest with
          | [] => false
          | c :: rest =>
            if 0xe0 ≤ a ∧ a ≤ 0xef then isSecondOf a b && isContinuation c && isUtf8 rest
            else match rest with
              | [] => false
              | d :: rest =>
                if 0xf0 ≤ a ∧ a ≤ 0xf4 then
                  isSecondOf a b && isContinuation c && isContinuation d && isUtf8 rest
                else false

/-- `split("\r\n")`. -/
def splitLines : List UInt8 → List (List UInt8)
  | [] => [[]]
  | 13 :: 10 :: rest => [] :: splitLines rest
  | b :: rest =>
    match splitLines rest with
    | [] => [[b]]
    | line :: lines => (b :: line) :: lines

def splitOnce (sep : UInt8) (text : List UInt8) : Option (List UInt8 × List UInt8) :=
  (position [sep] text).map fun i => (text.take i, text.drop (i + 1))

def rsplitOnce (sep : UInt8) (text : List UInt8) : Option (List UInt8 × List UInt8) :=
  (splitOnce sep text.reverse).map fun halves => (halves.2.reverse, halves.1.reverse)

def toAsciiLowercase (b : UInt8) : UInt8 := if 65 ≤ b ∧ b ≤ 90 then b + 32 else b

def eqIgnoreAsciiCase (a b : List UInt8) : Bool :=
  a.map toAsciiLowercase == b.map toAsciiLowercase

/-- The white space of one, two and three bytes. -/
def isSpace (a : UInt8) : Bool := decide (a = 32 ∨ (9 ≤ a ∧ a ≤ 13))

def isSpaceTwo (a b : UInt8) : Bool := a == 0xc2 && (b == 0x85 || b == 0xa0)

def isSpaceThree (a b c : UInt8) : Bool :=
  (a == 0xe1 && b == 0x9a && c == 0x80)
    || (a == 0xe2 && b == 0x80
      && (decide (0x80 ≤ c ∧ c ≤ 0x8a) || c == 0xa8 || c == 0xa9 || c == 0xaf))
    || (a == 0xe2 && b == 0x81 && c == 0x9f) || (a == 0xe3 && b == 0x80 && c == 0x80)

/-- What is left when white space is taken from the front. -/
def trimWith (two : UInt8 → UInt8 → Bool) (three : UInt8 → UInt8 → UInt8 → Bool) :
    List UInt8 → List UInt8
  | [] => []
  | a :: rest =>
    if isSpace a then trimWith two three rest
    else match rest with
      | [] => [a]
      | b :: rest =>
        if two a b then trimWith two three rest
        else match rest with
          | [] => [a, b]
          | c :: rest => if three a b c then trimWith two three rest else a :: b :: c :: rest

def trim (text : List UInt8) : List UInt8 :=
  (trimWith (fun b a => isSpaceTwo a b) (fun c b a => isSpaceThree a b c)
    (trimWith isSpaceTwo isSpaceThree text).reverse).reverse

/-! ### The parser -/

/-- The decoders of the crate `data_encoding`, as the proxy uses them: `BASE64.decode` and
`BASE64URL_NOPAD.decode`, whatever they are. -/
structure DataEncoding where
  base64 : List UInt8 → Option (List UInt8)
  base64UrlNopad : List UInt8 → Option (List UInt8)

/-- A host that is handed to a resolver. -/
def HostOk (host : List UInt8) : Prop :=
  host ≠ [] ∧ host.length ≤ 255
    ∧ ∀ b ∈ host, ¬ (b ≤ 32 ∨ b = 47 ∨ b = 64 ∨ b = 92 ∨ b = 0x7f)

instance (host : List UInt8) : Decidable (HostOk host) := inferInstanceAs (Decidable (_ ∧ _ ∧ _))

structure Authority where
  host : List UInt8
  port : ℕ
  host_ok : HostOk host
  port_ok : 0 < port ∧ port < 65536
deriving DecidableEq

def stripPlus : List UInt8 → List UInt8
  | 43 :: digits => digits
  | digits => digits

/-- `str::parse::<u16>`. -/
def parseU16 (text : List UInt8) : Option ℕ :=
  let digits : List UInt8 := stripPlus text
  let value : ℕ := digits.foldl (fun acc b => 10 * acc + (b.toNat - 48)) 0
  if !digits.isEmpty && digits.all (fun b => decide (48 ≤ b ∧ b ≤ 57)) && decide (value < 65536)
  then some value else none

/-- Host and port of an authority; the colons of an IPv6 address stand in brackets. -/
def splitAuthority (raw : List UInt8) : Option (List UInt8 × List UInt8) :=
  match raw with
  | 91 :: rest =>
    match splitOnce 93 rest with
    | some (inside, 58 :: port) => some (inside, port)
    | _ => none
  | _ => rsplitOnce 58 raw

def Authority.parse (raw : List UInt8) : Except HeadError Authority :=
  match splitAuthority raw with
  | none => .error .malformedAuthority
  | some (host, port) =>
    if hhost : HostOk host then
      match parseU16 port with
      | none => .error .malformedAuthority
      | some port =>
        if hport : 0 < port ∧ port < 65536 then .ok ⟨host, port, hhost, hport⟩
        else .error .malformedAuthority
    else .error .malformedAuthority

structure ProxyCredential where
  bytes : List UInt8
deriving DecidableEq

structure ConnectHead where
  target : Authority
  credential : Option ProxyCredential
  headLen : ℕ
deriving DecidableEq

/-- Offset of the empty line that ends the head. -/
def findHeadEnd (buf : List UInt8) : Option ℕ := position (ascii "\r\n\r\n") buf

variable (enc : DataEncoding)

def parseProxyAuthorization (value : List UInt8) : Except HeadError ProxyCredential :=
  match splitOnce 32 value with
  | none => .error .unsupportedAuthScheme
  | some (scheme, encoded) =>
    if ¬ eqIgnoreAsciiCase scheme (ascii "basic") then .error .unsupportedAuthScheme
    else match enc.base64 (trim encoded) with
      | none => .error .malformedCredential
      | some decoded =>
        match splitOnce 58 decoded with
        | none => .error .malformedCredential
        | some (_, password) =>
          if password = [] then .error .malformedCredential else .ok ⟨password⟩

def parseHeaders : Option ProxyCredential → List (List UInt8) →
    Except HeadError (Option ProxyCredential)
  | credential, [] => .ok credential
  | credential, line :: lines =>
    if line = [] then parseHeaders credential lines
    else match splitOnce 58 line with
      | none => .error .malformedHeader
      | some (name, value) =>
        if ¬ eqIgnoreAsciiCase name (ascii "proxy-authorization") then
          parseHeaders credential lines
        else if credential.isSome then .error .duplicateCredential
        else do
          let parsed ← parseProxyAuthorization enc (trim value)
          parseHeaders (some parsed) lines

def parseHeadText (text : List UInt8) :
    Except HeadError (Authority × Option ProxyCredential) :=
  if ¬ isUtf8 text then .error .malformedHeader
  else match splitLines text with
    | [] => .error .malformedRequestLine
    | requestLine :: lines =>
      match requestLine.splitOn 32 with
      | [method, target, version] =>
        if method ≠ ascii "CONNECT" then .error .notConnect
        else if version ≠ ascii "HTTP/1.1" then .error .unsupportedVersion
        else do
          let credential ← parseHeaders enc none lines
          let target ← Authority.parse target
          return (target, credential)
      | _ => .error .malformedRequestLine

def parseConnectHead (buf : List UInt8) : Except HeadError (Option ConnectHead) :=
  match findHeadEnd buf with
  | none => if maxHeadBytes < buf.length then .error .tooLarge else .ok none
  | some stop =>
    if maxHeadBytes < stop then .error .tooLarge
    else do
      let (target, credential) ← parseHeadText enc (buf.take stop)
      return some ⟨target, credential, stop + 4⟩

/-! ### Heads and what follows -/

section Parse

variable {enc} {buf : List UInt8} {head : ConnectHead}

theorem parseConnectHead_some (h : parseConnectHead enc buf = .ok (some head)) :
    ∃ stop, findHeadEnd buf = some stop ∧ stop ≤ maxHeadBytes ∧ head.headLen = stop + 4
      ∧ parseHeadText enc (buf.take stop) = .ok (head.target, head.credential) := by
  unfold parseConnectHead at h
  split at h
  · split at h
    · cases h
    · cases h
  · rename_i stop hstop
    split at h
    · cases h
    · rename_i hmax
      cases htext : parseHeadText enc (buf.take stop) with
      | error e =>
        rw [htext] at h
        cases h
      | ok parsed =>
        rw [htext] at h
        cases h
        exact ⟨stop, hstop, Nat.le_of_not_lt hmax, rfl, htext⟩

/-- **An accepted head stays accepted** when more has arrived. -/
theorem parseConnectHead_append (h : parseConnectHead enc buf = .ok (some head))
    (more : List UInt8) :
    parseConnectHead enc (buf ++ more) = .ok (some head) := by
  obtain ⟨stop, hstop, hmax, hlen, htext⟩ := parseConnectHead_some h
  have hle : stop + 4 ≤ buf.length := position_add_le hstop
  have hfound : findHeadEnd (buf ++ more) = some stop := position_append hstop more
  have hsame : head = ⟨head.target, head.credential, stop + 4⟩ := by rw [← hlen]
  unfold parseConnectHead
  rw [hfound]
  dsimp only
  rw [if_neg (Nat.not_lt.mpr hmax), List.take_append_of_le_length (by omega), htext, hsame]
  rfl

/-- **Nothing shorter than the head is accepted**: before its last byte the parser asks for
more, or finds that there is too much already. -/
theorem parseConnectHead_short {more : List UInt8}
    (h : parseConnectHead enc (buf ++ more) = .ok (some head))
    (hshort : buf.length < head.headLen) :
    parseConnectHead enc buf
      = if maxHeadBytes < buf.length then .error .tooLarge else .ok none := by
  obtain ⟨stop, hstop, -, hlen, -⟩ := parseConnectHead_some h
  have hnone : findHeadEnd buf = none := by
    rw [Option.eq_none_iff_forall_not_mem]
    intro early hearly
    have hsame : some early = some stop := (position_append hearly more).symm.trans hstop
    have hle : early + 4 ≤ buf.length := position_add_le hearly
    cases hsame
    omega
  rw [parseConnectHead, hnone]

end Parse

end WarrenGuard.ConnectProxy

/-
Reads and writes that check their bounds.

A program that indexes a byte string outside of it panics.  The operations here give what they
read or the string they wrote, or the panic.  Within its bounds each of them is the plain
operation (`index_of_lt`, `window_of_le`, `write_of_fits`, `writeAll_of_fits`, `u32_of_lt`).

* `patchAll` — the writes of a list, without checks; it splits where the string does
  (`patchAll_append_left`, `patch_append_right`).
-/
import WarrenGuard.ByteString

namespace CheckedBytes

open ByteString

inductive Panic where
  | index
  | range
  | overflow
deriving DecidableEq

abbrev Checked (α : Type) := Except Panic α

variable {bs xs ys new : List UInt8} {i n : ℕ}

/-- `bs[i]`. -/
def index (bs : List UInt8) (i : ℕ) : Checked UInt8 :=
  if i < bs.length then .ok (byte bs i) else .error .index

/-- `bs[a..b]`. -/
def window (bs : List UInt8) (a b : ℕ) : Checked (List UInt8) :=
  if a ≤ b ∧ b ≤ bs.length then .ok (slice bs a (b - a)) else .error .range

/-- `bs[start..stop].copy_from_slice(bytes)`. -/
structure Write where
  start : ℕ
  stop : ℕ
  bytes : List UInt8

def Write.Fits (w : Write) (n : ℕ) : Prop :=
  w.start ≤ w.stop ∧ w.stop ≤ n ∧ w.bytes.length = w.stop - w.start

instance (w : Write) (n : ℕ) : Decidable (w.Fits n) :=
  inferInstanceAs (Decidable (_ ∧ _ ∧ _))

def write (bs : List UInt8) (w : Write) : Checked (List UInt8) :=
  if w.Fits bs.length then .ok (patch bs w.start w.bytes) else .error .range

def writeAll : List UInt8 → List Write → Checked (List UInt8)
  | bs, [] => .ok bs
  | bs, w :: ws => do
    let bs ← write bs w
    writeAll bs ws

def u32 (n : ℕ) : Checked ℕ := if n < 4294967296 then .ok n else .error .overflow

theorem index_of_lt (h : i < bs.length) : index bs i = .ok (byte bs i) := if_pos h

theorem window_of_le {a b : ℕ} (hab : a ≤ b) (hb : b ≤ bs.length) :
    window bs a b = .ok (slice bs a (b - a)) := if_pos ⟨hab, hb⟩

theorem u32_of_lt (h : n < 4294967296) : u32 n = .ok n := if_pos h

theorem write_of_fits {w : Write} (h : w.Fits bs.length) :
    write bs w = .ok (patch bs w.start w.bytes) := if_pos h

theorem ok_bind {α β : Type} (a : α) (f : α → Checked β) : (.ok a >>= f : Checked β) = f a := rfl

/-! ### Writes in a row -/

def patchAll (bs : List UInt8) (ws : List Write) : List UInt8 :=
  ws.foldl (fun bs w => patch bs w.start w.bytes) bs

theorem Write.Fits.length {w : Write} (h : w.Fits bs.length) :
    (patch bs w.start w.bytes).length = bs.length := by
  obtain ⟨hle, hstop, hlen⟩ := h
  exact length_patch (by omega)

theorem writeAll_of_fits {ws : List Write} (h : ∀ w ∈ ws, w.Fits bs.length) :
    writeAll bs ws = .ok (patchAll bs ws) := by
  induction ws generalizing bs with
  | nil => rfl
  | cons w ws ih =>
    have hw : w.Fits bs.length := h w List.mem_cons_self
    rw [writeAll, write_of_fits hw, ok_bind, ih, patchAll, patchAll, List.foldl_cons]
    intro w' hw'
    rw [hw.length]
    exact h w' (List.mem_cons_of_mem w hw')

theorem patch_append_left (h : i + new.length ≤ xs.length) :
    patch (xs ++ ys) i new = patch xs i new ++ ys := by
  rw [patch, patch, List.take_append_of_le_length (by omega),
    List.drop_append_of_le_length (by omega), List.append_assoc, List.append_assoc,
    List.append_assoc]

theorem patch_append_right (h : xs.length ≤ i) :
    patch (xs ++ ys) i new = xs ++ patch ys (i - xs.length) new := by
  rw [patch, patch, List.take_append, List.drop_append, List.take_of_length_le h,
    List.drop_of_length_le (by omega), List.nil_append, List.append_assoc, List.append_assoc,
    List.append_assoc, show i + new.length - xs.length = i - xs.length + new.length by omega]

theorem patch_whole (h : new.length = bs.length) : patch bs 0 new = new := by
  rw [patch, List.take_zero, List.nil_append, Nat.zero_add, h, List.drop_length, List.append_nil]

theorem patch_middle {gap : List UInt8} (hi : xs.length = i) (h : new.length = gap.length) :
    patch (xs ++ (gap ++ ys)) i new = xs ++ (new ++ ys) := by
  rw [patch_append_right (by omega), hi, Nat.sub_self, patch_append_left (by omega), patch_whole h]

theorem patchAll_append_left {ws : List Write} (h : ∀ w ∈ ws, w.Fits xs.length) :
    patchAll (xs ++ ys) ws = patchAll xs ws ++ ys := by
  induction ws generalizing xs with
  | nil => rfl
  | cons w ws ih =>
    have hw : w.Fits xs.length := h w List.mem_cons_self
    have hin : w.start + w.bytes.length ≤ xs.length := by
      obtain ⟨hle, hstop, hlen⟩ := hw
      omega
    rw [patchAll, List.foldl_cons, patch_append_left hin]
    refine (ih fun w' hw' => ?_).trans ?_
    · rw [hw.length]
      exact h w' (List.mem_cons_of_mem w hw')
    · rfl

/-! ### Arrays -/

/-- An array of `n` bytes. -/
structure Octets (n : ℕ) where
  bytes : List UInt8
  length_eq : bytes.length = n

/-- `<[u8; n]>::try_from(bs)`. -/
def Octets.ofList? (n : ℕ) (bs : List UInt8) : Option (Octets n) :=
  if h : bs.length = n then some ⟨bs, h⟩ else none

theorem Octets.exists_ofList? (h : bs.length = n) :
    ∃ a : Octets n, a.bytes = bs ∧ Octets.ofList? n bs = some a :=
  ⟨⟨bs, h⟩, rfl, dif_pos h⟩

theorem Octets.four (a : Octets 4) : ∃ w x y z, a.bytes = [w, x, y, z] := by
  obtain ⟨bytes, h⟩ := a
  match bytes, h with
  | [w, x, y, z], _ => exact ⟨w, x, y, z, rfl⟩

end CheckedBytes

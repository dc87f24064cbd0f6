import DragonflyFabric.Packet.Wire
import Mathlib.Algebra.Order.Ring.Nat

/-!
# Packets on the wire

A packet is sixty-eight bytes: its thirteen fields one after another, each with its lowest byte first. `Packet.Written`
says which byte stands where. Encoding and decoding are inverse to each other, whatever bytes come behind:
`wire_format`.

Nothing of this depends on which fields there are but for two facts: that decoding reads the fields by their
widths (`exists_decode`), and that the fields of a packet make it up (`eq_of_fields_eq`). What is left are lists of
numbers with widths, written by `bytesOfFields` and cut out again by `fieldsIn`.
-/

namespace DragonflyFabric.Packet

variable {k k' : Packet} {bytes : List UInt8} {parts : List (Nat × Nat)} {widths : List Nat} {width n i : Nat}

/-! ### Numbers -/

@[simp] theorem length_bytesOf (width n : Nat) : (bytesOf width n).length = width := by
  induction width generalizing n with
  | zero => rfl
  | succ width ih => rw [bytesOf, List.length_cons, ih]

/-- A number is had back from its bytes up to a multiple of their range. -/
theorem numberOf_bytesOf (width n : Nat) : numberOf (bytesOf width n) = n % 256 ^ width := by
  induction width generalizing n with
  | zero => rw [bytesOf, numberOf, Nat.pow_zero, Nat.mod_one]
  | succ width ih =>
    have hfirst : (UInt8.ofNat n).toNat = n % 256 := UInt8.toNat_ofNat'
    rw [bytesOf, numberOf, ih, hfirst, Nat.pow_succ', Nat.mod_mul]

theorem numberOf_lt (bytes : List UInt8) : numberOf bytes < 256 ^ bytes.length := by
  induction bytes with
  | nil => exact Nat.one_pos
  | cons b rest ih =>
    have hb := b.toNat_lt
    rw [numberOf, List.length_cons, Nat.pow_succ']
    omega

/-- Bytes are had back from their number. -/
theorem bytesOf_numberOf (bytes : List UInt8) : bytesOf bytes.length (numberOf bytes) = bytes := by
  induction bytes with
  | nil => rfl
  | cons b rest ih =>
    have hb := b.toNat_lt
    have hhead : UInt8.ofNat (b.toNat + 256 * numberOf rest) = b := by
      rw [← UInt8.toNat_inj, UInt8.toNat_ofNat']
      omega
    have htail : (b.toNat + 256 * numberOf rest) / 256 = numberOf rest := by omega
    rw [numberOf, List.length_cons, bytesOf, hhead, htail, ih]

/-- The bytes of a number are its digits, lowest first. -/
theorem getElem?_bytesOf {i : Nat} (h : i < width) :
    (bytesOf width n)[i]? = some (UInt8.ofNat (n >>> (8 * i))) := by
  induction width generalizing n i with
  | zero => omega
  | succ width ih =>
    cases i with
    | zero => rfl
    | succ i =>
      have hshift : n / 256 = n >>> 8 := (Nat.shiftRight_eq_div_pow n 8).symm
      rw [bytesOf, List.getElem?_cons_succ, ih (by omega), hshift, ← Nat.shiftRight_add, Nat.mul_succ, Nat.add_comm]

/-! ### Lists of fields -/

/-- Fields as bytes, one after another. -/
def bytesOfFields (parts : List (Nat × Nat)) : List UInt8 := parts.flatMap fun (width, n) => bytesOf width n

/-- The fields of some widths that bytes hold. -/
def fieldsIn : List Nat → List UInt8 → List (Nat × Nat)
  | [], _ => []
  | width :: widths, bytes => (width, numberOf (bytes.take width)) :: fieldsIn widths (bytes.drop width)

/-- The bytes that fields of some widths take. -/
def span (widths : List Nat) : Nat := widths.foldr (· + ·) 0

/-- The bytes from an offset on are those of a number, lowest first. -/
def HoldsAt (bytes : List UInt8) (offset width n : Nat) : Prop :=
  ∀ i < width, bytes[offset + i]? = some (UInt8.ofNat (n >>> (8 * i)))

theorem bytesOfFields_cons (part : Nat × Nat) (parts : List (Nat × Nat)) :
    bytesOfFields (part :: parts) = bytesOf part.1 part.2 ++ bytesOfFields parts := rfl

theorem length_bytesOfFields (parts : List (Nat × Nat)) :
    (bytesOfFields parts).length = span (parts.map Prod.fst) := by
  induction parts with
  | nil => rfl
  | cons part parts ih =>
    rw [bytesOfFields_cons, List.length_append, length_bytesOf, ih]
    rfl

/-- Fields that fit in their widths are had back from their bytes, whatever comes behind. -/
theorem fieldsIn_bytesOfFields (hfits : ∀ part ∈ parts, part.2 < 256 ^ part.1) (rest : List UInt8) :
    fieldsIn (parts.map Prod.fst) (bytesOfFields parts ++ rest) = parts := by
  induction parts with
  | nil => rfl
  | cons part parts ih =>
    obtain ⟨hfirst, hothers⟩ := List.forall_mem_cons.mp hfits
    have hlength := length_bytesOf part.1 part.2
    rw [List.map_cons, fieldsIn, bytesOfFields_cons, List.append_assoc, List.take_left' hlength,
      List.drop_left' hlength, numberOf_bytesOf, Nat.mod_eq_of_lt hfirst, ih hothers]

/-- Bytes are had back from the fields they hold. -/
theorem bytesOfFields_fieldsIn (h : span widths ≤ bytes.length) :
    bytesOfFields (fieldsIn widths bytes) = bytes.take (span widths) := by
  induction widths generalizing bytes with
  | nil => rfl
  | cons width widths ih =>
    have hspan : span (width :: widths) = width + span widths := rfl
    rw [hspan] at h ⊢
    have hfirst : bytesOf width (numberOf (bytes.take width)) = bytes.take width := by
      have hback := bytesOf_numberOf (bytes.take width)
      rwa [List.length_take_of_le (by omega)] at hback
    have hothers : span widths ≤ (bytes.drop width).length := by
      rw [List.length_drop]
      omega
    rw [fieldsIn, bytesOfFields_cons, List.take_add, hfirst, ih hothers]

/-- Every field stands behind those before it. -/
theorem holdsAt_bytesOfFields (h : parts[i]? = some (width, n)) :
    HoldsAt (bytesOfFields parts) (span ((parts.take i).map Prod.fst)) width n := by
  induction parts generalizing i with
  | nil => cases h
  | cons part parts ih =>
    intro j hj
    rw [bytesOfFields_cons]
    cases i with
    | zero =>
      cases h
      have hfirst : j < (bytesOf width n).length := by rwa [length_bytesOf]
      rw [List.take_zero, List.map_nil, span, List.foldr_nil, Nat.zero_add, List.getElem?_append_left hfirst,
        getElem?_bytesOf hj]
    | succ i =>
      have hspan : span (((part :: parts).take (i + 1)).map Prod.fst) =
          (bytesOf part.1 part.2).length + span ((parts.take i).map Prod.fst) := by
        rw [length_bytesOf]
        rfl
      rw [hspan, Nat.add_assoc, List.getElem?_append_right (Nat.le_add_right _ _), Nat.add_sub_cancel_left]
      exact ih h j hj

/-! ### Packets -/

/-- A packet whose numbers are words of sixty-four bits. Its other parts have the widths of theirs. -/
structure Fits (k : Packet) : Prop where
  source_lt : k.request.source < 2 ^ 64
  destination_lt : k.request.destination < 2 ^ 64
  network_lt : k.request.network < 2 ^ 64
  bits_lt : k.request.bits < 2 ^ 64
  channel_lt : k.channel < 2 ^ 64

/-- The bytes of a packet. -/
structure Written (k : Packet) (bytes : List UInt8) : Prop where
  length_eq : bytes.length = 68
  source : HoldsAt bytes 0 8 k.request.source
  destination : HoldsAt bytes 8 8 k.request.destination
  network : HoldsAt bytes 16 8 k.request.network
  bits : HoldsAt bytes 24 8 k.request.bits
  channel : HoldsAt bytes 32 8 k.channel
  origin : HoldsAt bytes 40 4 k.origin.toNat
  group : HoldsAt bytes 44 4 k.dest.group.toNat
  target : HoldsAt bytes 48 4 k.dest.target.toNat
  alternate : HoldsAt bytes 52 4 k.dest.alternate.toNat
  router : HoldsAt bytes 56 4 k.dest.router.toNat
  host : HoldsAt bytes 60 4 k.dest.host.toNat
  slot : HoldsAt bytes 64 2 k.slot.toNat
  otherSlot : HoldsAt bytes 66 2 k.otherSlot.toNat

/-- The widths of the fields of every packet. -/
def fieldWidths : List Nat := [8, 8, 8, 8, 8, 4, 4, 4, 4, 4, 4, 2, 2]

theorem map_fst_fields (k : Packet) : k.fields.map Prod.fst = fieldWidths := rfl

theorem encode_eq (k : Packet) : k.encode = bytesOfFields k.fields := rfl

/-- A field of a packet stands behind those before it. -/
theorem holdsAt_encode (k : Packet) (i : Nat) (h : k.fields[i]? = some (width, n)) :
    HoldsAt k.encode (span (fieldWidths.take i)) width n := by
  rw [← map_fst_fields k, ← List.map_take]
  exact holdsAt_bytesOfFields h

theorem written_encode (k : Packet) : k.Written k.encode where
  length_eq := by
    rw [encode_eq, length_bytesOfFields, map_fst_fields]
    decide
  source := k.holdsAt_encode 0 rfl
  destination := k.holdsAt_encode 1 rfl
  network := k.holdsAt_encode 2 rfl
  bits := k.holdsAt_encode 3 rfl
  channel := k.holdsAt_encode 4 rfl
  origin := k.holdsAt_encode 5 rfl
  group := k.holdsAt_encode 6 rfl
  target := k.holdsAt_encode 7 rfl
  alternate := k.holdsAt_encode 8 rfl
  router := k.holdsAt_encode 9 rfl
  host := k.holdsAt_encode 10 rfl
  slot := k.holdsAt_encode 11 rfl
  otherSlot := k.holdsAt_encode 12 rfl

theorem Fits.lt_of_mem_fields (h : k.Fits) : ∀ field ∈ k.fields, field.2 < 256 ^ field.1 := by
  have hlong : (256 : Nat) ^ 8 = 2 ^ 64 := rfl
  have hword : (256 : Nat) ^ 4 = 2 ^ 32 := rfl
  have hshort : (256 : Nat) ^ 2 = 2 ^ 16 := rfl
  simp only [fields, List.forall_mem_cons, hlong, hword, hshort]
  exact ⟨h.source_lt, h.destination_lt, h.network_lt, h.bits_lt, h.channel_lt, k.origin.toNat_lt, k.dest.group.toNat_lt,
    k.dest.target.toNat_lt, k.dest.alternate.toNat_lt, k.dest.router.toNat_lt, k.dest.host.toNat_lt, k.slot.toNat_lt,
    k.otherSlot.toNat_lt, List.forall_mem_nil _⟩

theorem eq_of_fields_eq (h : k.fields = k'.fields) : k = k' := by
  obtain ⟨⟨_, _, _, _⟩, _, _, ⟨_, _, _, _, _⟩, _, _⟩ := k
  obtain ⟨⟨_, _, _, _⟩, _, _, ⟨_, _, _, _, _⟩, _, _⟩ := k'
  simpa [fields, UInt32.toNat_inj, UInt16.toNat_inj, and_assoc] using h

theorem fieldAt_lt (bytes : List UInt8) (offset width : Nat) : fieldAt bytes offset width < 256 ^ width := by
  refine Nat.lt_of_lt_of_le (numberOf_lt _) (Nat.pow_le_pow_right (by decide) ?_)
  exact List.length_take_le _ _

theorem exists_decode (h : wireSize ≤ bytes.length) :
    ∃ k, decode bytes = .ok k ∧ k.Fits ∧ k.fields = fieldsIn fieldWidths bytes := by
  have hlong : ∀ offset, fieldAt bytes offset 8 < 2 ^ 64 := fun offset =>
    Nat.lt_of_lt_of_eq (fieldAt_lt bytes offset 8) rfl
  have hword : ∀ offset, (UInt32.ofNat (fieldAt bytes offset 4)).toNat = fieldAt bytes offset 4 := fun offset =>
    UInt32.toNat_ofNat_of_lt' (Nat.lt_of_lt_of_eq (fieldAt_lt bytes offset 4) rfl)
  have hshort : ∀ offset, (UInt16.ofNat (fieldAt bytes offset 2)).toNat = fieldAt bytes offset 2 := fun offset =>
    UInt16.toNat_ofNat_of_lt' (Nat.lt_of_lt_of_eq (fieldAt_lt bytes offset 2) rfl)
  rw [decode, if_neg (Nat.not_lt.mpr h)]
  refine ⟨_, rfl, ⟨hlong 0, hlong 8, hlong 16, hlong 24, hlong 32⟩, ?_⟩
  simp only [fields, hword, hshort]
  simp only [fieldAt, fieldWidths, fieldsIn, List.drop_drop, List.drop_zero, Nat.reduceAdd]

/-! ### Both ways -/

/-- **Encoding and decoding are inverse to each other.** A packet whose numbers are words is had back from its bytes,
whatever comes behind them. Any sixty-eight bytes are those of a packet, and fewer are not decoded. -/
theorem wire_format :
    (∀ k : Packet, k.Written k.encode) ∧
    (∀ k : Packet, k.Fits → ∀ rest, decode (k.encode ++ rest) = .ok k) ∧
    (∀ bytes : List UInt8, 68 ≤ bytes.length →
      ∃ k, decode bytes = .ok k ∧ k.Fits ∧ k.encode = bytes.take 68) ∧
    (∀ bytes : List UInt8, bytes.length < 68 → decode bytes = .error .notDecoded) ∧
    Fault.notDecoded.kind = "CouldNotDecodeEvent" := by
  refine ⟨written_encode, fun k hk rest => ?_, fun bytes h => ?_, fun bytes h => if_pos h, rfl⟩
  · have hlength : wireSize ≤ (k.encode ++ rest).length := by
      rw [List.length_append, (written_encode k).length_eq]
      exact Nat.le_add_right _ _
    obtain ⟨k', hdecode, -, hfields⟩ := exists_decode hlength
    rw [encode_eq, ← map_fst_fields k, fieldsIn_bytesOfFields hk.lt_of_mem_fields] at hfields
    rw [hdecode, eq_of_fields_eq hfields]
  · obtain ⟨k, hdecode, hk, hfields⟩ := exists_decode h
    refine ⟨k, hdecode, hk, ?_⟩
    rw [encode_eq, hfields]
    exact bytesOfFields_fieldsIn h

/-- A packet on its way through another group, with a byte behind it; bytes that are no number in particular; and
one byte too few. -/
theorem wire_format_sample :
    let k : Packet := ⟨⟨0, 100, 1, 512⟩, 3, 0, ⟨6, 3, 3, 1, 0⟩, 1, 0xbeef⟩
    k.Fits ∧ decode (k.encode ++ [7]) = .ok k ∧
      (∃ k', decode (List.replicate 70 1) = .ok k' ∧ k'.encode = List.replicate 68 1) ∧
      decode (k.encode.take 67) = .error .notDecoded := by
  intro k
  obtain ⟨-, hback, hall, hfew, -⟩ := wire_format
  have hk : k.Fits := by constructor <;> decide
  obtain ⟨k', hdecode, -, hencode⟩ := hall (List.replicate 70 1) (by decide)
  exact ⟨hk, hback k hk [7], ⟨k', hdecode, hencode⟩, hfew _ (by decide)⟩

end DragonflyFabric.Packet
